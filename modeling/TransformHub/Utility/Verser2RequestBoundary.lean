import Mathlib.Data.Nat.Notation

/-!
# The boundary of a verser2 request

`handleVerser2RequestBoundary` of `verser2-request-boundary.ts`.
-/

namespace TransformHub.Utility.Verser2RequestBoundary

/-! ## Errors and streams -/

/-- A value that is thrown or emitted. `other` is no object, or one that has been seen. -/
inductive ErrorValue where
  | other
  | object (code : Option String) (cause reason source error : ErrorValue)

def EXPECTED_DISCONNECT_CODES : List String :=
  ["ECONNRESET", "EPIPE", "ERR_HTTP2_STREAM_CANCEL", "NGHTTP2_CANCEL", "disconnected-target"]

/-- `a || b` of two codes. -/
def firstCode (a b : Option String) : Option String :=
  match a with
  | none => b
  | some code => if code = "" then b else some code

def errorCode : ErrorValue → Option String
  | .other => none
  | .object code cause reason source error =>
    if code.getD "" ∈ EXPECTED_DISCONNECT_CODES then code
    else
      firstCode (errorCode cause)
        (firstCode (errorCode reason)
          (firstCode (errorCode source) (firstCode (errorCode error) code)))

structure StreamFlags where
  aborted : Bool
  closed : Bool
  destroyed : Bool
  readableEnded : Bool
  writableEnded : Bool
  rstCode : Option ℕ

def streamIsClosed (f : StreamFlags) : Bool :=
  f.aborted || f.closed || f.destroyed || f.readableEnded || f.writableEnded ||
    (f.rstCode.isSome && decide (f.rstCode ≠ some 0))

/-- An object that emits events. -/
abbrev Emitter := ℕ

/-- The request and the response with what hangs on them; the same emitter may be several. -/
structure Wiring where
  request : Emitter
  body : Option Emitter
  raw : Option Emitter
  stream : Option Emitter
  response : Emitter
  bodyStream : Option Emitter
  listens : Emitter → Bool

/-- `isExpectedVerser2DisconnectError` for a source and its owner. -/
def isExpectedVerser2DisconnectError (w : Wiring) (flags : Emitter → StreamFlags)
    (error : ErrorValue) (source owner : Emitter) : Bool :=
  let closed := fun e => streamIsClosed (flags e)
  let bodyStreamClosed := (w.bodyStream.map closed).getD false
  let nestedSource := decide (source ≠ w.request) && decide (source ≠ w.response)
  let nestedOwnerClosed := nestedSource &&
    (closed owner || (decide (some source = w.bodyStream) && closed w.request))
  let responseCascadeClosed :=
    decide (source = w.response) && closed w.request && bodyStreamClosed
  let boundaryClosed :=
    if nestedSource then nestedOwnerClosed
    else if source = w.response then responseCascadeClosed
    else closed source || closed owner
  decide ((errorCode error).getD "" ∈ EXPECTED_DISCONNECT_CODES) && boundaryClosed

/-! ## Listeners -/

inductive Role where
  | request
  | body
  | raw
  | stream
  | response
  | bodyStream
deriving DecidableEq

inductive EventName where
  | error
  | finish
  | close
  | aborted
deriving DecidableEq

/-- What a listener does: `onEmitterError` for a source and its owner, or `complete`. -/
inductive Handler where
  | onError (role : Role) (source owner : Emitter)
  | complete

structure Listener where
  emitter : Emitter
  event : EventName
  handler : Handler

def addBoundaryErrorListener (w : Wiring) (role : Role) (source : Option Emitter)
    (owner : Emitter) : List Listener :=
  match source with
  | none => []
  | some source => if w.listens source then [⟨source, .error, .onError role source owner⟩] else []

/-- The listeners that are added before the dispatch. -/
def addedListeners (w : Wiring) : List Listener :=
  addBoundaryErrorListener w .request (some w.request) w.request ++
  addBoundaryErrorListener w .body w.body w.request ++
  addBoundaryErrorListener w .raw w.raw w.request ++
  addBoundaryErrorListener w .stream w.stream w.request ++
  addBoundaryErrorListener w .response (some w.response) w.response ++
  addBoundaryErrorListener w .bodyStream w.bodyStream w.response ++
  (if w.listens w.response then
    [⟨w.response, .finish, .complete⟩, ⟨w.response, .close, .complete⟩,
      ⟨w.response, .aborted, .complete⟩]
  else [])

/-! ## States -/

structure CascadeToken where
  sources : List Emitter
  codes : List String

/-- What `settle` was first called for. -/
inductive Outcome where
  | completed
  | contained
  | fatal
deriving DecidableEq

/-- The call of a listener for the event of that number. -/
structure Invocation where
  event : ℕ
  handler : Handler
  error : ErrorValue

inductive Origin where
  | event (number : ℕ) (role : Role) (source : Emitter) (code : String)
  | dispatch

/-- A call of `fatal`, with the cascade that was set then. -/
structure FatalReport where
  origin : Origin
  cascade : Option CascadeToken

inductive DispatchPhase where
  | running
  | pending
  | over
deriving DecidableEq

/-- The variables of a boundary, the streams, and what is under way: invocations, closings of the
response whose `finally` is to come, and ticks. `handled` says that a handler has run, and
`firstFatal` is the number of events that had begun at the first fatal report. -/
structure State where
  settled : Bool
  cascadeToken : Option CascadeToken
  listeners : List Listener
  flags : Emitter → StreamFlags
  headersStarted : Bool
  statusCode : Option ℕ
  phase : DispatchPhase
  inFlight : List Invocation
  closings : List Emitter
  ticks : ℕ
  events : ℕ
  handled : Bool
  outcomes : List Outcome
  fatals : List FatalReport
  firstFatal : Option ℕ

inductive Action where
  | emit (emitter : Emitter) (event : EventName) (error : ErrorValue)
  | invoke (i : ℕ)
  /-- `response.end` or `response.destroy` returns or throws -/
  | closed
  | tick
  | dispatchReturns (promise : Bool)
  | dispatchThrows
  | promiseFulfils
  | promiseRejects
  | mutate (emitter : Emitter) (flags : StreamFlags)
  | startHeaders

namespace State

/-- The state in which `dispatch` is called. -/
def start (w : Wiring) (flags : Emitter → StreamFlags) (headersStarted : Bool) : State where
  settled := false
  cascadeToken := none
  listeners := addedListeners w
  flags := flags
  headersStarted := headersStarted
  statusCode := none
  phase := .running
  inFlight := []
  closings := []
  ticks := 0
  events := 0
  handled := false
  outcomes := []
  fatals := []
  firstFatal := none

def cleanup (s : State) : State := { s with listeners := [] }

/-- `settle`, for an outcome. -/
def settle (s : State) (o : Outcome) : State :=
  if s.settled then s else { s with settled := true, outcomes := s.outcomes ++ [o] }

def complete (s : State) : State :=
  if s.settled then s else (s.settle .completed).cleanup

def reportFatal (s : State) (origin : Origin) : State :=
  { s.cleanup with
    fatals := s.fatals ++ [⟨origin, s.cascadeToken⟩]
    firstFatal := some (s.firstFatal.getD s.events) }

/-- `containDisconnect` up to the closing of the response, when it returns true. -/
def contain (w : Wiring) (s : State) (error : ErrorValue) (source owner : Emitter) : State :=
  { s.settle .contained with
    cascadeToken := some
      ⟨[source, owner, w.response] ++ w.bodyStream.toList,
        (errorCode error).toList.filter (· ≠ "")⟩
    statusCode := if s.headersStarted then s.statusCode else some 499
    closings := s.closings ++ [source] }

def onEmitterError (w : Wiring) (s : State) (event : ℕ) (role : Role) (error : ErrorValue)
    (source owner : Emitter) : State :=
  let code := (errorCode error).getD ""
  let origin := Origin.event event role source code
  match s.cascadeToken with
  | some token => if source ∈ token.sources ∧ code ∈ token.codes then s else s.reportFatal origin
  | none =>
    if isExpectedVerser2DisconnectError w s.flags error source owner ∧ s.settled = false then
      s.contain w error source owner
    else (s.settle .fatal).reportFatal origin

def onDispatchError (s : State) : State := (s.settle .fatal).reportFatal .dispatch

def handle (w : Wiring) (s : State) (c : Invocation) : State :=
  let s := { s with handled := true }
  match c.handler with
  | .complete => s.complete
  | .onError role source owner => s.onEmitterError w c.event role c.error source owner

def next (w : Wiring) (s : State) : Action → State
  | .emit emitter event error =>
    { s with
      inFlight := s.inFlight ++
        (s.listeners.filter fun l => l.emitter = emitter ∧ l.event = event).map
          fun l => ⟨s.events, l.handler, error⟩
      events := s.events + 1 }
  | .invoke i =>
    match s.inFlight[i]? with
    | none => s
    | some c => { s with inFlight := s.inFlight.eraseIdx i }.handle w c
  | .closed =>
    match s.closings with
    | [] => s
    | source :: closings =>
      if some source = w.bodyStream then { s with closings, ticks := s.ticks + 1 }
      else { s with closings }.cleanup
  | .tick => if s.ticks = 0 then s else { s with ticks := s.ticks - 1 }.cleanup
  | .dispatchReturns promise =>
    if s.phase = .running then { s with phase := if promise then .pending else .over } else s
  | .dispatchThrows =>
    if s.phase = .running then { s with phase := .over, handled := true }.onDispatchError else s
  | .promiseFulfils =>
    if s.phase = .pending then { s with phase := .over, handled := true }.complete else s
  | .promiseRejects =>
    if s.phase = .pending then { s with phase := .over, handled := true }.onDispatchError else s
  | .mutate emitter flags => { s with flags := fun e => if e = emitter then flags else s.flags e }
  | .startHeaders => { s with headersStarted := true }

end State

end TransformHub.Utility.Verser2RequestBoundary

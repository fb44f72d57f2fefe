import Mathlib.Data.List.Lex
import TransformHub.Js.Base64
import TransformHub.Lib.Transition

/-!
# The broker transport of the Manager

`Verser2ManagerSthBrokerTransport` of `verser2-transport.ts`, without its requests: the routes that
it shows, and the calls of `waitForRoute`.
-/

namespace TransformHub.Manager.Verser2Transport

open Js

abbrev Name := List Char

structure Verser2Route where
  targetId : Name
  domain : Name

inductive TransportError where
  /-- `Verser2DuplicateRouteError` -/
  | duplicateRoute (domain : Name)
  /-- "Verser2 broker transport is closed: …" -/
  | transportClosed (domain : Name)
  /-- "Timed out waiting for verser2 route: …" -/
  | timedOut (domain : Name)
  /-- for "*", with the reason or "Verser2 broker transport closed" -/
  | closing (reason : Name)

/-- A call of `waitForRoute`, with the waiter that was made for it. -/
structure Wait where
  domain : Name
  timeoutMs : Option ℕ
  finished : Bool
  /-- `waiter.timer` is running -/
  interval : Bool
  /-- `waiter.timeout` is running -/
  timeout : Bool
  /-- how the promise of the call has been settled, each time that it has -/
  settlements : List (Except TransportError Unit)

structure State where
  routes : List Verser2Route
  closed : Bool
  suppressedRouteSignature : Option Name
  /-- the entries of `routeWaiters`, which are the numbers of their calls -/
  routeWaiters : List ℕ
  waits : ℕ → Wait
  next : ℕ

def Wait.none : Wait := ⟨[], Option.none, false, false, false, []⟩

def new (routes : List Verser2Route) : State := ⟨routes, false, none, [], fun _ => .none, 0⟩

/-! ## Routes -/

/-- The order of JavaScript's `sort`. -/
def sortsBefore (x y : Name) : Bool := decide (x.flatMap codeUnits ≤ y.flatMap codeUnits)

def routeSignature (routes : List Verser2Route) : Name :=
  List.intercalate [Char.ofNat 1]
    ((routes.map fun route => route.domain ++ Char.ofNat 0 :: route.targetId).mergeSort sortsBefore)

namespace State

/-- `getRoutes`, which forgets the suppressed signature when the routes have changed. -/
def getRoutes (s : State) : List Verser2Route × State :=
  if s.closed then ([], s)
  else
    match s.suppressedRouteSignature with
    | none => (s.routes, s)
    | some signature =>
      if routeSignature s.routes = signature then ([], s)
      else (s.routes, { s with suppressedRouteSignature := none })

def findRoute (s : State) (domain : Name) : Except TransportError (Option Verser2Route) × State :=
  let (routes, s) := s.getRoutes
  let routes := routes.filter fun route => route.domain = domain
  if routes.length > 1 ∧ (routes.map (·.targetId)).dedup.length > 1 then
    (.error (.duplicateRoute domain), s)
  else (.ok routes.head?, s)

def isRouteReady (s : State) (domain : Name) : Except TransportError Bool × State :=
  let (route, s) := s.findRoute domain
  (route.map (·.isSome), s)

/-! ## Waiters -/

def setWait (s : State) (id : ℕ) (wait : Wait) : State :=
  { s with waits := Function.update s.waits id wait }

/-- `finish` of a waiter: `rejectWaiter` or `resolveWaiter`, once. -/
def finish (s : State) (id : ℕ) (outcome : Except TransportError Unit) : State :=
  let waiter := s.waits id
  if waiter.finished then s
  else
    { s with
      waits := Function.update s.waits id
        { waiter with
          finished := true, interval := false, timeout := false,
          settlements := waiter.settlements ++ [outcome] }
      routeWaiters := s.routeWaiters.filter (· ≠ id) }

def check (s : State) (id : ℕ) : State :=
  let domain := (s.waits id).domain
  if s.closed then s.finish id (.error (.transportClosed domain))
  else
    match s.isRouteReady domain with
    | (.ok true, s) => s.finish id (.ok ())
    | (.ok false, s) => s
    | (.error error, s) => s.finish id (.error error)

def createRouteWaiter (s : State) (id : ℕ) (domain : Name) (timeoutMs : Option ℕ) : State :=
  let waiter : Wait := ⟨domain, timeoutMs, false, true, timeoutMs.isSome, []⟩
  let s := s.setWait id waiter
  { s with routeWaiters := s.routeWaiters ++ [id] }.check id

/-- A call that is settled without a waiter. -/
def settle (s : State) (id : ℕ) (domain : Name) (timeoutMs : Option ℕ)
    (outcome : Except TransportError Unit) : State :=
  s.setWait id ⟨domain, timeoutMs, true, false, false, [outcome]⟩

def waitForRoute (s : State) (domain : Name) (timeoutMs : Option ℕ) : State :=
  let id := s.next
  match { s with next := s.next + 1 }.isRouteReady domain with
  | (.error error, s) => s.settle id domain timeoutMs (.error error)
  | (.ok true, s) => s.settle id domain timeoutMs (.ok ())
  | (.ok false, s) =>
    if s.closed then s.settle id domain timeoutMs (.error (.transportClosed domain))
    else s.createRouteWaiter id domain timeoutMs

def rejectRouteWaiters (s : State) (error : TransportError) : State :=
  { s.routeWaiters.foldl (fun s id => s.finish id (.error error)) s with routeWaiters := [] }

/-- `close`, up to closing the broker. -/
def close (s : State) (reason : Option Name) : State :=
  let s := { s with suppressedRouteSignature := some (routeSignature s.routes), closed := true }
  s.rejectRouteWaiters (.closing
    (match reason with
    | none | some [] => "Verser2 broker transport closed".toList
    | some reason => reason))

end State

/-! ## Steps -/

inductive Action where
  /-- the broker has registered or lost routes -/
  | routes (routes : List Verser2Route)
  | waitForRoute (domain : Name) (timeoutMs : Option ℕ)
  /-- the interval of a waiter -/
  | tick (id : ℕ)
  /-- the timeout of a waiter -/
  | expire (id : ℕ)
  | close (reason : Option Name)
  /-- `connect` goes on after `broker.connect` -/
  | connected
  | getRoutes

/-- A step; an interval or timeout that does not run does nothing. -/
def next (s : State) : Action → State
  | .routes routes => { s with routes }
  | .waitForRoute domain timeoutMs => s.waitForRoute domain timeoutMs
  | .tick id => if (s.waits id).interval then s.check id else s
  | .expire id =>
    if (s.waits id).timeout then s.finish id (.error (.timedOut (s.waits id).domain)) else s
  | .close reason => s.close reason
  | .connected => { s with closed := false }
  | .getRoutes => s.getRoutes.2

def run (routes : List Verser2Route) (actions : List Action) : State :=
  actions.foldl next (new routes)

end TransformHub.Manager.Verser2Transport

import TransformHub.Js.Value
import TransformHub.Lib.Waiters

/-!
# The broker of the runners

`PollingVerser2RunnerBroker` of `runner-transport.ts`: its history of route changes hides routes of
the broker's snapshot, and the waiters of `waitForRoute` are checked at each event and each tick.
-/

namespace TransformHub.Host

abbrev RouteName := List Char

structure Verser2RunnerRoute where
  targetId : RouteName
  domain : RouteName
  /-- the registration that the route comes from -/
  generation : ℕ
deriving DecidableEq

inductive RouteChange where
  | added
  | changed
  | degraded
  | removed
deriving DecidableEq

structure VerserBrokerRouteChangeEvent where
  type : RouteChange
  targetId : RouteName
  domain : RouteName
  generationId : Option RouteName
  /-- the registration that the event is about -/
  generation : ℕ

inductive RouteWaitError where
  /-- "Duplicate active runner routes advertised: …" -/
  | duplicateActive (domain : RouteName)
  /-- "Runner verser2 transport connection was cancelled" -/
  | cancelled
  /-- `Verser2RunnerRouteUnavailableError`, "Timed out waiting for runner verser2 route: …" -/
  | timedOut (domain : RouteName)

def routeKey (targetId domain : RouteName) : RouteName := domain ++ Char.ofNat 0 :: targetId

def Verser2RunnerRoute.key (route : Verser2RunnerRoute) : RouteName :=
  routeKey route.targetId route.domain

def VerserBrokerRouteChangeEvent.key (event : VerserBrokerRouteChangeEvent) : RouteName :=
  routeKey event.targetId event.domain

/-- The generation id, when it is truthy. -/
def VerserBrokerRouteChangeEvent.tag (event : VerserBrokerRouteChangeEvent) : Option RouteName :=
  event.generationId.filter (· ≠ [])

structure PollingVerser2RunnerBroker where
  /-- what `broker.getRoutes()` returns -/
  routes : List Verser2RunnerRoute
  inactiveRoutes : List RouteName
  lastInactiveGenerations : RouteName → Option RouteName
  routeWaiters : Waiters RouteWaitError
  /-- the domain that each call of `waitForRoute` is about -/
  domains : ℕ → RouteName

namespace PollingVerser2RunnerBroker

def new (routes : List Verser2RunnerRoute) : PollingVerser2RunnerBroker :=
  ⟨routes, [], fun _ => none, .empty, fun _ => []⟩

section Methods

variable (s : PollingVerser2RunnerBroker)

/-! ## Routes -/

/-- The routes that `getActiveRoute` chooses from. -/
def activeRoutes (domain : RouteName) : List Verser2RunnerRoute :=
  s.routes.filter fun route => route.domain = domain ∧ route.key ∉ s.inactiveRoutes

def getActiveRoute (domain : RouteName) : Except RouteWaitError (Option Verser2RunnerRoute) :=
  let active := s.activeRoutes domain
  if active.length > 1 then .error (.duplicateActive domain) else .ok active.head?

/-! ## Waiters -/

def finish (id : ℕ) (outcome : Except RouteWaitError Unit) : PollingVerser2RunnerBroker :=
  { s with routeWaiters := s.routeWaiters.finish id outcome }

def check (id : ℕ) : PollingVerser2RunnerBroker :=
  match s.getActiveRoute (s.domains id) with
  | .error error => s.finish id (.error error)
  | .ok none => s
  | .ok (some _) => s.finish id (.ok ())

/-- A call, `signal` being whether its signal is aborted, if it has one. -/
def waitForRoute (domain : RouteName) (timeoutMs : Option ℕ) (signal : Option Bool) :
    PollingVerser2RunnerBroker :=
  let id := s.routeWaiters.next
  let settle := fun outcome =>
    { s with
      routeWaiters := s.routeWaiters.settle timeoutMs signal.isSome outcome
      domains := Function.update s.domains id domain }
  match s.getActiveRoute domain with
  | .error error => settle (.error error)
  | .ok (some _) => settle (.ok ())
  | .ok none =>
    if signal = some true then settle (.error .cancelled)
    else
      { s with
        routeWaiters := s.routeWaiters.add timeoutMs signal.isSome
        domains := Function.update s.domains id domain }.check id

/-! ## Events -/

/-- The event is about the generation that was made inactive last. -/
def isRepeated (event : VerserBrokerRouteChangeEvent) : Prop :=
  event.tag ≠ none ∧ s.lastInactiveGenerations event.key = event.tag

instance (event : VerserBrokerRouteChangeEvent) : Decidable (s.isRepeated event) :=
  inferInstanceAs (Decidable (_ ∧ _))

def activate (key : RouteName) : PollingVerser2RunnerBroker :=
  { s with inactiveRoutes := s.inactiveRoutes.filter (· ≠ key) }

def deactivate (key : RouteName) : PollingVerser2RunnerBroker :=
  { s with inactiveRoutes := key :: s.inactiveRoutes.filter (· ≠ key) }

/-- What a removal leaves: no inactive key and no generation. -/
def forget (key : RouteName) : PollingVerser2RunnerBroker :=
  { s.activate key with
    lastInactiveGenerations := Function.update s.lastInactiveGenerations key none }

/-- The generation of the event is recorded, if it is given. -/
def record (event : VerserBrokerRouteChangeEvent) : PollingVerser2RunnerBroker :=
  match event.tag with
  | none => s
  | some generationId =>
    { s with
      lastInactiveGenerations :=
        Function.update s.lastInactiveGenerations event.key (some generationId) }

def checkAll : PollingVerser2RunnerBroker := s.routeWaiters.entries.foldl check s

def handleRouteChange (event : VerserBrokerRouteChangeEvent) : PollingVerser2RunnerBroker :=
  match event.type with
  | .added | .changed => (s.activate event.key).checkAll
  | .degraded =>
    -- returns before the waiters are checked
    if s.isRepeated event then s
    else ((s.record event).deactivate event.key).checkAll
  | .removed =>
    if s.isRepeated event then s.forget event.key
    else (((s.record event).deactivate event.key).forget event.key).checkAll

end Methods

/-! ## Steps -/

inductive Action where
  /-- the snapshot of the broker has changed -/
  | routes (routes : List Verser2RunnerRoute)
  | routeChange (event : VerserBrokerRouteChangeEvent)
  | waitForRoute (domain : RouteName) (timeoutMs : Option ℕ) (signal : Option Bool)
  /-- the interval of a waiter -/
  | tick (id : ℕ)
  /-- the timeout of a waiter -/
  | expire (id : ℕ)
  /-- the signal of a waiter is aborted -/
  | abort (id : ℕ)

/-- A step; an interval, a timeout or a listener that is gone does nothing. -/
def next (s : PollingVerser2RunnerBroker) : Action → PollingVerser2RunnerBroker
  | .routes routes => { s with routes }
  | .routeChange event => s.handleRouteChange event
  | .waitForRoute domain timeoutMs signal => s.waitForRoute domain timeoutMs signal
  | .tick id => if (s.routeWaiters.waiter id).interval then s.check id else s
  | .expire id =>
    if (s.routeWaiters.waiter id).timeout then s.finish id (.error (.timedOut (s.domains id)))
    else s
  | .abort id => if (s.routeWaiters.waiter id).listener then s.finish id (.error .cancelled) else s

def run (routes : List Verser2RunnerRoute) (actions : List Action) : PollingVerser2RunnerBroker :=
  actions.foldl next (new routes)

end PollingVerser2RunnerBroker

end TransformHub.Host

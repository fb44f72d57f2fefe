import TransformHub.Host.CsiControllerTerminal
import TransformHub.Host.InstancesRegistry

/-!
# Exposed paths and the life of a controller

The paths that the instances of a Host expose: `handleReadinessMessage` and `failReadiness` of
`CSIController` register and revoke them, and so does what follows on `terminated` and `end`.
-/

namespace TransformHub.Host.ExposeRoutes

open Instances CsiController

structure ExposingController extends CsiController.CSIController where
  expose : Option String

/-- The path that `handleReadinessMessage` registers for a message. -/
def ExposingController.exposed (x : ExposingController) (e : Event) (exposePath : Option String) :
    Option String :=
  match e with
  | .readiness true =>
    if x.hooked = false ∨ x.readinessState = .errored ∨ x.endEmitted then none
    else CsiController.truthy exposePath
  | _ => none

/-- An event leads to `failReadiness`. The timer of `waitForReady` is cleared by every message that
it heeds. -/
def ExposingController.failsReadiness (x : ExposingController) (e : Event) : Bool :=
  match e with
  | .readiness false => x.hooked && decide (x.readinessState ≠ .errored) && !x.endEmitted
  | .readinessTimeout => decide (x.readinessState = .pending)
  | _ => false

/-- The store of the instances, and the controllers by their numbers. -/
structure HostRoutes where
  registry : InstancesRegistry
  controllers : List ExposingController
  /-- the ids in `requiredStartupEntriesByInstanceId` -/
  required : List String

namespace HostRoutes

def new : HostRoutes := ⟨.new, [], []⟩

variable (csi : ℕ → ICSI) (s : HostRoutes)

def onRPCExpose (path instanceId : String) : HostRoutes :=
  { s with registry := s.registry.registerRpc path instanceId }

def onRPCExposeRevoked (path instanceId : String) : HostRoutes :=
  { s with registry := s.registry.unregisterRpc path instanceId }

/-- The routes after the path of a controller, if it has one, is revoked. -/
def revoke (x : ExposingController) (instanceId : String) : HostRoutes :=
  match CsiController.truthy x.expose with
  | some path => s.onRPCExposeRevoked path instanceId
  | none => s

/-- `createCSIController`, for the next number. -/
def createCSIController (entrypointPath : String) (inputTopic : Option String)
    (instanceLifetimeExtensionDelay : ℕ) (thrown : Option String) : HostRoutes :=
  let i := s.controllers.length
  { s with
    registry := s.registry.set csi (csi i).id i
    controllers := s.controllers ++
      [⟨CsiController.CSIController.start entrypointPath inputTopic
          instanceLifetimeExtensionDelay thrown, none⟩] }

def cleanupRequiredStartupInstance (instanceId : String) : HostRoutes :=
  if instanceId ∈ s.required then
    match (s.registry.get? instanceId).bind (s.controllers[·]?) with
    | none => s
    | some x =>
      let s := s.revoke x instanceId
      { s with registry := s.registry.delete csi instanceId }
  else s

def handleDispatcherTerminatedEvent (i : ℕ) : HostRoutes :=
  if s.registry.get? (csi i).id ≠ some i then s
  else
    cleanupRequiredStartupInstance csi
      { s with registry := (s.registry.removeManifest csi i .instanceEnded).1 } (csi i).id

def handleDispatcherEndEvent (i : ℕ) : HostRoutes :=
  if s.registry.get? (csi i).id ≠ some i then s
  else s.cleanupRequiredStartupInstance csi (csi i).id

/-- The listener of the dispatcher for `end`. -/
def onEnd (i : ℕ) : HostRoutes :=
  let s := s.handleDispatcherEndEvent csi i
  if s.registry.get? (csi i).id = some i then
    { s with registry := s.registry.delete csi (csi i).id }
  else s

/-- The listeners of the dispatcher are told of what controller `i` emits; the one for `terminated`
throws where there is no input stream. -/
def told (i : ℕ) (x : ExposingController) (s : HostRoutes) : Emission → HostRoutes
  | .terminated _ => if x.terminatedListener then s.handleDispatcherTerminatedEvent csi i else s
  | .end _ => s.onEnd csi i

def exposeAfter (x : ExposingController) (e : Event) (exposePath : Option String) :
    Option String :=
  match x.exposed e exposePath with
  | some path => some path
  | none => if x.failsReadiness e && (CsiController.truthy x.expose).isSome then none else x.expose

/-- The routes after what a controller does about its readiness. -/
def reroute (i : ℕ) (x : ExposingController) (e : Event) (exposePath : Option String) :
    HostRoutes :=
  match x.exposed e exposePath with
  | some path => s.onRPCExpose path (csi i).id
  | none => if x.failsReadiness e then s.revoke x (csi i).id else s

/-- The controller after an event. A timer that has been cleared does nothing. -/
def controllerAfter (x : ExposingController) (e : Event) (exposePath : Option String) :
    ExposingController :=
  let x' := ⟨CsiController.next x.toCSIController e, exposeAfter x e exposePath⟩
  match e with
  | .readinessTimeout => if x.failsReadiness e then x' else x
  | _ => x'

/-- An event of controller `i`; a READY may have an `exposePath`. -/
def signal (i : ℕ) (e : Event) (exposePath : Option String) : HostRoutes :=
  match s.controllers[i]? with
  | none => s
  | some x =>
    let x' := controllerAfter x e exposePath
    let s := s.reroute csi i x e exposePath
    (x'.emitted.drop x.emitted.length).foldl (told csi i x')
      { s with controllers := s.controllers.set i x' }

inductive Action where
  | create (entrypointPath : String) (inputTopic : Option String)
      (instanceLifetimeExtensionDelay : ℕ) (thrown : Option String)
  | signal (i : ℕ) (e : Event) (exposePath : Option String)
  /-- the startup entries change -/
  | require (ids : List String)

def next : Action → HostRoutes
  | .create entrypointPath inputTopic instanceLifetimeExtensionDelay thrown =>
    s.createCSIController csi entrypointPath inputTopic instanceLifetimeExtensionDelay thrown
  | .signal i e exposePath => s.signal csi i e exposePath
  | .require ids => { s with required := ids }

end HostRoutes

end TransformHub.Host.ExposeRoutes

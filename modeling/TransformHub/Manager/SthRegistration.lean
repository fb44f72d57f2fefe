import TransformHub.Js.Text
import TransformHub.Manager.SthInfoInventory
import TransformHub.Manager.TopicConnections

/-!
# Registration of hubs

`handleSthRegistration` of the Manager with its rollback, and the handlers that it attaches to the
controller of each registration.
-/

namespace TransformHub.Manager.SthRegistration

open SthInfo

structure HubInventoryState where
  sequencesReceived : Bool
  instancesReceived : Bool

inductive DisconnectReason where
  | key_revoked
  | limit_exceeded
  | id_drop
  | disconnected

structure STHController where
  id : HostId
  routeDomain : String
  selfHosted : Bool
  healthy : Bool
  disconnectReason : Option DisconnectReason
  disposed : Bool

structure HubStateSnapshot where
  sequences : List SequenceInfo
  instances : List (String × Instance)
  inventory : Option HubInventoryState

/-- A registration that awaits `init`, with the controller that it replaces. -/
abbrev Registration := Option (ℕ × HubStateSnapshot)

/-- A `delete` of the connection store that awaits `disconnect`. -/
structure Removal where
  id : HostId
  sth : ℕ

structure ManagerState where
  sthInfoRegister : STHInfoRegister
  /-- the controllers by number, as many as `controllerCount` -/
  controllers : ℕ → STHController
  controllerCount : ℕ
  sthConnectionStore : OrderedMap HostId ℕ
  hubInventoryState : OrderedMap HostId HubInventoryState
  serviceDiscovery : ServiceDiscovery
  registrations : OrderedMap ℕ Registration
  removals : List Removal
  /-- what the auditor has been told of connections -/
  audits : List (HostId × Bool)

inductive Emission where
  | sequenceCreated (id : SequenceId) (config : Option SequenceConfig)
  | sequenceDeleted (id : SequenceId)
  | sequences
  | instanceGone (sequenceId : SequenceId) (id : InstanceId)
  | instance (inst : Instance)
  | instances
  | topicAdd (topicName : String) (role : ActorRole) (contentType : String)
  | topicRemove (topicName : String)
  /-- a load message, which makes the controller healthy -/
  | load

namespace ManagerState

def noController : STHController := ⟨"", "", false, false, none, false⟩

def start : ManagerState where
  sthInfoRegister := .empty
  controllers := fun _ => noController
  controllerCount := 0
  sthConnectionStore := .empty
  hubInventoryState := .empty
  serviceDiscovery := .new
  registrations := .empty
  removals := []
  audits := []

section Steps

variable (m : ManagerState)

def updateController (k : ℕ) (f : STHController → STHController) : ManagerState :=
  { m with controllers := fun j => if j = k then f (m.controllers k) else m.controllers j }

def markHubInventory (hostId : HostId) (f : HubInventoryState → HubInventoryState) : ManagerState :=
  { m with
    hubInventoryState := m.hubInventoryState.set hostId
      (f ((m.hubInventoryState.get? hostId).getD ⟨false, false⟩)) }

def captureHubSnapshot (hostId : HostId) : HubStateSnapshot where
  sequences := (m.sthInfoRegister.sequencesStore.get? hostId).getD []
  instances := m.sthInfoRegister.instancesStore.entries.filter fun e =>
    (hostId ++ ":").toList <+: e.1.toList
  inventory := m.hubInventoryState.get? hostId

/-- The map of sequences that a snapshot stands for. -/
def snapshotSequences (sequences : List SequenceInfo) : SequencesMap :=
  .ofEntries (sequences.map fun s => (s.id, .ofEntries (s.instances.map fun i => (i, ()))))

def restoreHubSnapshot (hostId : HostId) (snapshot : HubStateSnapshot) : ManagerState :=
  { m with
    sthInfoRegister :=
      { hostsMap := m.sthInfoRegister.hostsMap.set hostId (snapshotSequences snapshot.sequences)
        sequencesStore :=
          if snapshot.sequences = [] then m.sthInfoRegister.sequencesStore
          else m.sthInfoRegister.sequencesStore.set hostId snapshot.sequences
        instancesStore := snapshot.instances.foldl (fun store e => store.set e.1 e.2)
          m.sthInfoRegister.instancesStore }
    hubInventoryState :=
      match snapshot.inventory with
      | none => m.hubInventoryState
      | some inventory => m.hubInventoryState.set hostId inventory }

/-- `handleSthRegistration`, from the lookup of the previous controller to `init`. -/
def handleSthRegistration (id : HostId) (routeDomain : String) (selfHosted : Bool) : ManagerState :=
  let k := m.controllerCount
  let created :=
    { m.updateController k fun _ => ⟨id, routeDomain, selfHosted, true, none, false⟩ with
      controllerCount := k + 1 }
  match m.sthConnectionStore.get? id with
  | some previous =>
    { created with
      sthInfoRegister := (m.sthInfoRegister.clearHostEntities id).addHub id
      hubInventoryState := m.hubInventoryState.delete id
      sthConnectionStore := m.sthConnectionStore.set id k
      registrations := m.registrations.set k (some (previous, m.captureHubSnapshot id)) }
  | none =>
    { created with
      sthInfoRegister := m.sthInfoRegister.addHub id
      hubInventoryState := m.hubInventoryState.delete id
      sthConnectionStore := m.sthConnectionStore.set id k
      registrations := m.registrations.set k none }

def rollbackFailedSthRegistration (k : ℕ) (registration : Registration) : ManagerState :=
  let id := (m.controllers k).id
  let removed :=
    { m.updateController k fun sth => { sth with disposed := true } with
      sthInfoRegister := (m.sthInfoRegister.clearHostEntities id).removeHub id
      hubInventoryState := m.hubInventoryState.delete id
      sthConnectionStore := m.sthConnectionStore.delete id }
  match registration with
  | none => removed
  | some (previous, snapshot) =>
    let previousId := (m.controllers previous).id
    { removed with
      sthConnectionStore := removed.sthConnectionStore.set previousId previous
    }.restoreHubSnapshot previousId snapshot

def initFailed (k : ℕ) : ManagerState :=
  match m.registrations.get? k with
  | none => m
  | some registration =>
    { m with registrations := m.registrations.delete k }.rollbackFailedSthRegistration k
      registration

/-- The `init` of a controller has come to its end. -/
def initResolved (k : ℕ) : ManagerState :=
  match m.registrations.get? k with
  | none => m
  | some registration =>
    let settled :=
      { m with
        registrations := m.registrations.delete k
        audits := m.audits ++ [((m.controllers k).id, true)] }
    match registration with
    | none => settled
    | some (previous, _) => settled.updateController previous fun sth => { sth with disposed := true }

def cleanupHubState (id : HostId) : ManagerState :=
  { m with
    sthInfoRegister := m.sthInfoRegister.clearHostEntities id
    hubInventoryState := m.hubInventoryState.delete id
    audits := m.audits ++ [(id, false)]
    serviceDiscovery := m.serviceDiscovery.onUpdate }

/-- The actor that the removal of a topic finds. -/
def hostActor (topicName : String) (id : HostId) : Option ℕ :=
  (m.serviceDiscovery.actorsOf topicName).find? fun i =>
    (m.serviceDiscovery.actors i).type = .host id

/-- The handlers that `attachSTHEventHandlers` attaches to a controller. -/
def handleEmission (k : ℕ) : Emission → ManagerState
  | .sequenceCreated seqId config =>
    { m with sthInfoRegister :=
        m.sthInfoRegister.addSequence (m.controllers k).id seqId config }
  | .sequenceDeleted seqId =>
    { m with sthInfoRegister := m.sthInfoRegister.deleteSequence (m.controllers k).id seqId }
  | .sequences =>
    m.markHubInventory (m.controllers k).id fun state => { state with sequencesReceived := true }
  | .instanceGone seqId id =>
    { m with sthInfoRegister := m.sthInfoRegister.deleteInstance (m.controllers k).id seqId id }
  | .instance inst =>
    match m.sthInfoRegister.addInstance (m.controllers k).id inst with
    | .ok sthInfoRegister => { m with sthInfoRegister }
    | .error _ => m
  | .instances =>
    m.markHubInventory (m.controllers k).id fun state => { state with instancesReceived := true }
  | .topicAdd topicName role contentType =>
    { m with serviceDiscovery :=
        m.serviceDiscovery.register topicName role (.host (m.controllers k).id) contentType }
  | .topicRemove topicName =>
    match m.hostActor topicName (m.controllers k).id with
    | none => m
    | some actor => { m with serviceDiscovery := m.serviceDiscovery.unregister actor }
  | .load => m.updateController k fun sth => { sth with healthy := true }

/-- `disconnect` of a controller, up to the messages to the hub. -/
def disconnect (k : ℕ) (reason : DisconnectReason) : ManagerState :=
  match (m.controllers k).disconnectReason with
  | some _ => m
  | none =>
    (m.updateController k fun sth => { sth with disconnectReason := some reason }).cleanupHubState
      (m.controllers k).id

/-- `delete` of the connection store; `isConnectionActive` says whether the route is ready. -/
def deleteConnection (id : HostId) (isConnectionActive force : Bool) : ManagerState :=
  match m.sthConnectionStore.get? id with
  | none => m
  | some k =>
    if (m.controllers k).selfHosted = false then m
    else if isConnectionActive then
      if force then
        let disconnecting := m.disconnect k .id_drop
        { disconnecting with removals := disconnecting.removals ++ [⟨id, k⟩] }
      else m
    else { m with sthConnectionStore := m.sthConnectionStore.delete id }

/-- The `disconnect` that a `delete` awaits has come to its end. -/
def removalDue (i : ℕ) : ManagerState :=
  match m.removals[i]? with
  | none => m
  | some removal =>
    { m with
      removals := m.removals.eraseIdx i
      sthConnectionStore := m.sthConnectionStore.delete removal.id }

/-- A route is removed or degraded and is not ready any more. -/
def routeLost (domain : String) : ManagerState :=
  m.sthConnectionStore.values.foldl (fun m k =>
    if (m.controllers k).routeDomain = domain then
      (m.updateController k fun sth => { sth with healthy := false }).cleanupHubState
        (m.controllers k).id
    else m) m

end Steps

end ManagerState

/-! ## Runs -/

inductive Action where
  | register (id : HostId) (routeDomain : String) (selfHosted : Bool)
  | initResolved (sth : ℕ)
  | initFailed (sth : ℕ)
  | emit (sth : ℕ) (emission : Emission)
  /-- no load message has come for a while -/
  | loadTimeout (sth : ℕ)
  /-- the API disconnects the hub that is registered -/
  | disconnect (id : HostId) (reason : DisconnectReason)
  | delete (id : HostId) (isConnectionActive force : Bool)
  | removalDue (i : ℕ)
  | routeLost (domain : String)
  /-- what else happens to topics -/
  | topics (action : ServiceDiscovery.Action)

def ManagerState.next (m : ManagerState) : Action → ManagerState
  | .register id routeDomain selfHosted => m.handleSthRegistration id routeDomain selfHosted
  | .initResolved k => m.initResolved k
  | .initFailed k => m.initFailed k
  | .emit k emission => if k < m.controllerCount then m.handleEmission k emission else m
  | .loadTimeout k => m.updateController k fun sth => { sth with healthy := false }
  | .disconnect id reason =>
    match m.sthConnectionStore.get? id with
    | none => m
    | some k => m.disconnect k reason
  | .delete id isConnectionActive force => m.deleteConnection id isConnectionActive force
  | .removalDue i => m.removalDue i
  | .routeLost domain => m.routeLost domain
  | .topics action => { m with serviceDiscovery := m.serviceDiscovery.next action }

def system : System ManagerState Action := .ofFun .start ManagerState.next

end TransformHub.Manager.SthRegistration

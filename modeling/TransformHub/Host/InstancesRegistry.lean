import TransformHub.Host.InstancesStore
import TransformHub.Lib.Transition
import TransformHub.RestApi2.RuntimeManifest

/-!
# The whole store of instances

`InstancesStore` with the paths that instances expose and the manifests that they publish, and every
operation on it as a step.
-/

namespace TransformHub.Host.Instances

open Js RestApi2

/-! ## Data -/

/-- What the store reads of the sequence of a controller. -/
structure CsiSequence where
  id : String
  name : Option String
  config : JsValue

/-- What the store reads of a controller. -/
structure ICSI where
  id : String
  sequence : Option CsiSequence

structure ManifestSequenceMetadata where
  name : Option String
  version : Option String
  description : Option String

structure ManifestOwnerRegistration where
  owner : ℕ
  instanceId : String
  sequenceId : String
  sequence : ManifestSequenceMetadata
  terminated : Bool
  /-- the number of the registration; not in the code -/
  number : ℕ

/-- What `IDProvider.generate` gives. -/
structure Revision where
  id : String
  nonempty : id ≠ ""

structure InstanceManifestPublication where
  owner : ℕ
  declaration : ManifestDeclaration
  revision : Revision

inductive ManifestAction where
  | published
  | updated
  | removed
deriving DecidableEq

inductive ManifestRemovalReason where
  | instanceEnded
  | instanceDeleted
  | instanceReplaced
  | hostStopped

structure ManifestChange where
  action : ManifestAction
  instanceId : String
  sequenceId : String
  revision : Option Revision
  previousRevision : Option Revision
  manifest : Option ManifestDeclaration
  sequence : ManifestSequenceMetadata
  reason : Option ManifestRemovalReason
  /-- the owner and its registration; not in the change -/
  owner : ℕ
  registration : ℕ

structure InstanceManifestResponse where
  instanceId : String
  sequenceId : String
  revision : Option Revision
  manifest : Option ManifestDeclaration
  sequence : ManifestSequenceMetadata

structure ManifestReceipt where
  instanceId : String
  sequenceId : String
  revision : Revision

/-- What `publishManifest` throws. -/
inductive ManifestPublicationError where
  | instanceNotActive
  | invalidDeclaration

/-- `InstancesStore`, as a whole. -/
structure InstancesRegistry extends InstancesStore where
  exposePathMap : OrderedMap String (List String)
  manifestOwners : OrderedMap String ManifestOwnerRegistration
  instanceManifests : OrderedMap String InstanceManifestPublication
  /-- what the handler of manifest changes has been called with -/
  changes : List ManifestChange
  /-- what the handler of the inventory audit has been called with -/
  audits : List (Option ℕ × String × String)
  /-- how many registrations of owners there have been; not in the code -/
  registrations : ℕ

namespace InstancesRegistry

def new : InstancesRegistry where
  toInstancesStore := .new
  exposePathMap := .empty
  manifestOwners := .empty
  instanceManifests := .empty
  changes := []
  audits := []
  registrations := 0

/-- `owner.sequence?.id || ""`. -/
def sequenceIdOf (owner : ICSI) : String := (owner.sequence.map CsiSequence.id).getD ""

/-- The metadata that `captureManifestOwner` takes from a controller. -/
def sequenceMetadata (owner : ICSI) : ManifestSequenceMetadata :=
  let config := (owner.sequence.map CsiSequence.config).getD .undefined
  { name := (config.get "name").str?.or (owner.sequence.bind CsiSequence.name)
    version := (config.get "version").str?
    description := (config.get "description").str? }

variable (csi : ℕ → ICSI) (s : InstancesRegistry)

/-- `captureManifestOwner`, and the registration with it. -/
def captureManifestOwner (instanceId : String) (owner : ℕ) : InstancesRegistry :=
  { s with
    manifestOwners := s.manifestOwners.set instanceId
      ⟨owner, instanceId, sequenceIdOf (csi owner), sequenceMetadata (csi owner), false, s.registrations⟩
    registrations := s.registrations + 1 }

/-! ## Manifests -/

/-- The registration of an owner under its own id, when it is the controller of the store. -/
def currentOwner (owner : ℕ) : Option ManifestOwnerRegistration :=
  match s.manifestOwners.get? (csi owner).id with
  | none => none
  | some registration =>
    if registration.owner = owner ∧ s.get? registration.instanceId = some owner then
      some registration
    else none

/-- The publication of an instance, when it is the owner's. -/
def publicationOf (instanceId : String) (owner : ℕ) : Option InstanceManifestPublication :=
  (s.instanceManifests.get? instanceId).filter fun publication => publication.owner = owner

def publishManifest (owner : ℕ) (declaration : JsValue) (revision : Revision) :
    Except ManifestPublicationError (InstancesRegistry × ManifestReceipt) :=
  match s.currentOwner csi owner with
  | none => .error .instanceNotActive
  | some registration =>
    if registration.terminated then .error .instanceNotActive
    else
      match snapshotManifestDeclaration declaration with
      | none => .error .invalidDeclaration
      | some snapshot =>
        let previousPublication := s.publicationOf registration.instanceId owner
        let change : ManifestChange :=
          { action := if previousPublication.isSome then .updated else .published
            instanceId := registration.instanceId
            sequenceId := registration.sequenceId
            revision := some revision
            previousRevision := previousPublication.map InstanceManifestPublication.revision
            manifest := snapshotManifestDeclaration snapshot.json.toValue
            sequence := registration.sequence
            reason := none
            owner := owner
            registration := registration.number }
        .ok ({ s with
          instanceManifests :=
            s.instanceManifests.set registration.instanceId ⟨owner, snapshot, revision⟩
          changes := s.changes ++ [change] },
          ⟨registration.instanceId, registration.sequenceId, revision⟩)

def getManifest (owner : ℕ) : Option InstanceManifestResponse :=
  match s.currentOwner csi owner with
  | none => none
  | some registration =>
    let current := if registration.terminated then none
      else s.publicationOf registration.instanceId owner
    some ⟨registration.instanceId, registration.sequenceId,
      current.map InstanceManifestPublication.revision,
      current.bind fun publication => snapshotManifestDeclaration publication.declaration.json.toValue,
      registration.sequence⟩

def getSequenceManifests (sequenceId : String) : List InstanceManifestResponse :=
  s.manifestOwners.values.filterMap fun registration =>
    if registration.sequenceId ≠ sequenceId ∨ registration.terminated = true ∨
        s.get? registration.instanceId ≠ some registration.owner then none
    else
      (s.publicationOf registration.instanceId registration.owner).map fun publication =>
        ⟨registration.instanceId, registration.sequenceId, some publication.revision,
          snapshotManifestDeclaration publication.declaration.json.toValue, registration.sequence⟩

/-- `removeManifest`, with what it answers. -/
def removeManifest (owner : ℕ) (reason : ManifestRemovalReason) : InstancesRegistry × Bool :=
  match s.manifestOwners.get? (csi owner).id with
  | none => (s, false)
  | some registration =>
    if registration.owner ≠ owner ∨ registration.terminated = true then (s, false)
    else
      let s := { s with
        manifestOwners := s.manifestOwners.set (csi owner).id { registration with terminated := true } }
      match s.publicationOf registration.instanceId owner with
      | none => (s, false)
      | some publication =>
        let change : ManifestChange :=
          { action := .removed
            instanceId := registration.instanceId
            sequenceId := registration.sequenceId
            revision := none
            previousRevision := some publication.revision
            manifest := none
            sequence := registration.sequence
            reason := some reason
            owner := owner
            registration := registration.number }
        ({ s with
          instanceManifests := s.instanceManifests.delete registration.instanceId
          changes := s.changes ++ [change] }, true)

/-! ## Exposed paths -/

def registerRpc (path instanceId : String) : InstancesRegistry :=
  let ids := (s.exposePathMap.get? path).getD []
  { s with
    exposePathMap := s.exposePathMap.set path
      (if ids.contains instanceId then ids else ids ++ [instanceId]) }

/-- A path loses an instance, and goes with its last one. -/
def unexpose (paths : OrderedMap String (List String)) (path instanceId : String) :
    OrderedMap String (List String) :=
  match paths.get? path with
  | none => paths
  | some ids =>
    let rest := ids.filter (· ≠ instanceId)
    if rest.isEmpty then paths.delete path else paths.set path rest

def unregisterRpc (path instanceId : String) : InstancesRegistry :=
  { s with exposePathMap := unexpose s.exposePathMap path instanceId }

/-- The loop of `delete` over the paths. -/
def unexposeAll (instanceId : String) (paths : OrderedMap String (List String)) :
    OrderedMap String (List String) :=
  paths.keys.foldl
    (fun paths path =>
      if ((paths.get? path).getD []).contains instanceId then unexpose paths path instanceId
      else paths)
    paths

/-! ## Controllers -/

/-- What `set` does before it stores a controller: the owner that it takes the id from goes. -/
def replaceOwner (instanceId : String) (value : ℕ) : InstancesRegistry :=
  match s.get? instanceId with
  | none => s
  | some current =>
    if current = value then s
    else
      let s := (s.removeManifest csi current .instanceReplaced).1
      { s with manifestOwners := s.manifestOwners.delete instanceId }

def set (instanceId : String) (value : ℕ) : InstancesRegistry :=
  let replaced := s.replaceOwner csi instanceId value
  let registered :=
    if s.get? instanceId ≠ some value ∨ replaced.manifestOwners.has instanceId = false then
      replaced.captureManifestOwner csi instanceId value
    else replaced
  { registered with
    toInstancesStore := registered.toInstancesStore.set instanceId value
    audits := registered.audits ++ [(some value, instanceId, sequenceIdOf (csi value))] }

def delete (instanceId : String) : InstancesRegistry :=
  let removed :=
    match s.get? instanceId with
    | none => s
    | some current => (s.removeManifest csi current .instanceDeleted).1
  { removed with
    toInstancesStore := removed.toInstancesStore.delete instanceId
    exposePathMap := unexposeAll instanceId removed.exposePathMap
    manifestOwners := removed.manifestOwners.delete instanceId
    instanceManifests := removed.instanceManifests.delete instanceId
    audits :=
      match s.get? instanceId with
      | none => removed.audits
      | some current => removed.audits ++ [(none, instanceId, sequenceIdOf (csi current))] }

def clear : InstancesRegistry :=
  let removed := s.manifestOwners.values.foldl
    (fun s registration => (s.removeManifest csi registration.owner .hostStopped).1) s
  { removed with
    toInstancesStore := .new
    exposePathMap := .empty
    manifestOwners := .empty
    instanceManifests := .empty
    audits := removed.audits ++
      s.controllers.entries.map fun e => (none, e.1, sequenceIdOf (csi e.2)) }

end InstancesRegistry

/-! ## Steps -/

inductive RegistryAction where
  | set (instanceId : String) (value : ℕ)
  | delete (instanceId : String)
  | clear
  | reserveId (instanceId : String)
  | releaseId (instanceId : String)
  | reserveName (instanceName instanceId : String)
  | registerName (instanceName instanceId : String)
  | unregisterName (instanceName instanceId : String)
  | registerRpc (path instanceId : String)
  | unregisterRpc (path instanceId : String)
  | publishManifest (owner : ℕ) (declaration : JsValue) (revision : Revision)
  | removeManifest (owner : ℕ) (reason : ManifestRemovalReason)

def InstancesRegistry.next (csi : ℕ → ICSI) (s : InstancesRegistry) :
    RegistryAction → InstancesRegistry
  | .set instanceId value => s.set csi instanceId value
  | .delete instanceId => s.delete csi instanceId
  | .clear => s.clear csi
  | .reserveId instanceId =>
    { s with toInstancesStore := (s.toInstancesStore.reserveId instanceId).getD s.toInstancesStore }
  | .releaseId instanceId => { s with toInstancesStore := s.toInstancesStore.releaseId instanceId }
  | .reserveName instanceName instanceId =>
    { s with
      toInstancesStore :=
        (s.toInstancesStore.reserveName instanceId instanceName).getD s.toInstancesStore }
  | .registerName instanceName instanceId =>
    { s with toInstancesStore := s.toInstancesStore.registerName instanceId instanceName }
  | .unregisterName instanceName instanceId =>
    { s with toInstancesStore := s.toInstancesStore.unregisterName instanceId instanceName }
  | .registerRpc path instanceId => s.registerRpc path instanceId
  | .unregisterRpc path instanceId => s.unregisterRpc path instanceId
  | .publishManifest owner declaration revision =>
    match s.publishManifest csi owner declaration revision with
    | .error _ => s
    | .ok (s', _) => s'
  | .removeManifest owner reason => (s.removeManifest csi owner reason).1

end TransformHub.Host.Instances

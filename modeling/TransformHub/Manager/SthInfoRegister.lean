import TransformHub.Lib.OrderedMap

/-!
# The register of hubs

`STHInfoRegister` of `sth-info-register.ts`: a map of hubs to their sequences and instances, and two
flat stores beside it, of sequence records by hub and of instance records by hub and instance id.
-/

namespace TransformHub.Manager.SthInfo

abbrev HostId := String
abbrev SequenceId := String
abbrev InstanceId := String

structure SequenceConfig where
  id : Option String
  name : Option String
deriving DecidableEq

structure SequenceInfo where
  id : SequenceId
  config : SequenceConfig
  location : String
  instances : List InstanceId

structure InstanceSequence where
  id : SequenceId
  name : Option String
  location : Option String
deriving DecidableEq

structure Instance where
  id : InstanceId
  sequence : InstanceSequence
  hubId : Option String
  location : Option String
  sequenceId : Option String
deriving DecidableEq

abbrev InstancesSet := OrderedMap InstanceId Unit

abbrev SequencesMap := OrderedMap SequenceId InstancesSet

structure STHInfoRegister where
  hostsMap : OrderedMap HostId SequencesMap
  sequencesStore : OrderedMap HostId (List SequenceInfo)
  instancesStore : OrderedMap String Instance

def getInstanceStoreKey (hostId : HostId) (instanceId : InstanceId) : String :=
  hostId ++ ":" ++ instanceId

theorem getInstanceStoreKey_injective {h : HostId} {i j : InstanceId}
    (heq : getInstanceStoreKey h i = getInstanceStoreKey h j) : i = j := by
  have hlist := congrArg String.toList heq
  simp only [getInstanceStoreKey, String.toList_append, List.append_assoc] at hlist
  exact String.toList_inj.mp (List.append_cancel_left (List.append_cancel_left hlist))

/-- The first record of the sequence gets other instances. -/
def updateSequence (seqId : SequenceId) (f : List InstanceId → List InstanceId) :
    List SequenceInfo → List SequenceInfo
  | [] => []
  | info :: infos =>
    if info.id = seqId then { info with instances := f info.instances } :: infos
    else info :: updateSequence seqId f infos

namespace STHInfoRegister

def empty : STHInfoRegister := ⟨.empty, .empty, .empty⟩

def addHub (r : STHInfoRegister) (hostId : HostId) : STHInfoRegister :=
  if r.hostsMap.has hostId then r else { r with hostsMap := r.hostsMap.set hostId .empty }

def clearHostEntities (r : STHInfoRegister) (id : HostId) : STHInfoRegister :=
  match r.hostsMap.get? id with
  | none => r
  | some sequencesMap =>
    { hostsMap := r.hostsMap.set id .empty
      sequencesStore := r.sequencesStore.delete id
      instancesStore := r.instancesStore.deleteAll <|
        sequencesMap.values.flatMap fun instancesSet =>
          instancesSet.keys.map (getInstanceStoreKey id) }

def removeHub (r : STHInfoRegister) (hostId : HostId) : STHInfoRegister :=
  { r.clearHostEntities hostId with
    hostsMap := (r.clearHostEntities hostId).hostsMap.delete hostId }

def addSequence (r : STHInfoRegister) (hostId : HostId) (seqId : SequenceId)
    (seqConfig : Option SequenceConfig) : STHInfoRegister :=
  match r.hostsMap.get? hostId with
  | none => r
  | some sequencesMap =>
    if sequencesMap.has seqId then r
    else
      { r with
        hostsMap := r.hostsMap.set hostId (sequencesMap.set seqId .empty)
        sequencesStore :=
          match seqConfig with
          | none => r.sequencesStore
          | some config =>
            r.sequencesStore.set hostId
              ((r.sequencesStore.get? hostId).getD [] ++ [⟨seqId, config, hostId, []⟩]) }

def deleteSequence (r : STHInfoRegister) (hostId : HostId) (seqId : SequenceId) :
    STHInfoRegister :=
  { r with
    hostsMap :=
      match r.hostsMap.get? hostId with
      | none => r.hostsMap
      | some sequencesMap => r.hostsMap.set hostId (sequencesMap.delete seqId)
    sequencesStore :=
      match r.sequencesStore.get? hostId with
      | none => r.sequencesStore
      | some sequencesArray =>
        if sequencesArray.filter (fun sequence => sequence.id ≠ seqId) = [] then
          r.sequencesStore.delete hostId
        else
          r.sequencesStore.set hostId
            (sequencesArray.filter fun sequence => sequence.id ≠ seqId) }

/-- The record of a sequence that `find` gives. -/
def record? (r : STHInfoRegister) (hostId : HostId) (seqId : SequenceId) : Option SequenceInfo :=
  ((r.sequencesStore.get? hostId).getD []).find? fun sequence => sequence.id = seqId

def withAggregationMetadata (r : STHInfoRegister) (hostId : HostId) (inst : Instance) : Instance :=
  let sequenceInfo := r.record? hostId inst.sequence.id
  let sequenceConfig := sequenceInfo.map (·.config)
  { inst with
    hubId := some (inst.hubId.getD hostId)
    location := some (inst.location.getD hostId)
    sequenceId := some (inst.sequenceId.getD inst.sequence.id)
    sequence :=
      { inst.sequence with
        name := inst.sequence.name <|> sequenceConfig.bind (·.name) <|> sequenceConfig.bind (·.id) <|>
          some inst.sequence.id
        location := inst.sequence.location <|> sequenceInfo.map (·.location) <|> some hostId } }

/-- The records of a hub, with other instances for one sequence. -/
def updateRecord (r : STHInfoRegister) (hostId : HostId) (seqId : SequenceId)
    (f : List InstanceId → List InstanceId) : OrderedMap HostId (List SequenceInfo) :=
  match r.sequencesStore.get? hostId with
  | none => r.sequencesStore
  | some sequencesArray => r.sequencesStore.set hostId (updateSequence seqId f sequencesArray)

def addInstance (r : STHInfoRegister) (hostId : HostId) (inst : Instance) :
    Except String STHInfoRegister :=
  match r.hostsMap.get? hostId with
  | none => .error ("Host with id: " ++ hostId ++ " does not exist.")
  | some sequencesMap =>
    match sequencesMap.get? inst.sequence.id with
    | none => .error ("Sequence with id: " ++ inst.sequence.id ++ " does not exist.")
    | some instancesMap =>
      if instancesMap.has inst.id then .ok r
      else
        .ok
          { hostsMap := r.hostsMap.set hostId
              (sequencesMap.set inst.sequence.id (instancesMap.set inst.id ()))
            sequencesStore := r.updateRecord hostId inst.sequence.id (· ++ [inst.id])
            instancesStore := r.instancesStore.set (getInstanceStoreKey hostId inst.id)
              (r.withAggregationMetadata hostId inst) }

def deleteInstance (r : STHInfoRegister) (hostId : HostId) (seqId : SequenceId)
    (instanceId : InstanceId) : STHInfoRegister :=
  match r.hostsMap.get? hostId with
  | none => r
  | some sequencesMap =>
    match sequencesMap.get? seqId with
    | none => r
    | some instancesMap =>
      if instancesMap.has instanceId then
        { hostsMap := r.hostsMap.set hostId
            (sequencesMap.set seqId (instancesMap.delete instanceId))
          sequencesStore := r.updateRecord hostId seqId (·.filter (· ≠ instanceId))
          instancesStore := r.instancesStore.delete (getInstanceStoreKey hostId instanceId) }
      else r

def getSequencesByHub (r : STHInfoRegister) (hostId : HostId) : Except String (List SequenceId) :=
  match r.hostsMap.get? hostId with
  | none => .error ("Host with id: " ++ hostId ++ " does not exist.")
  | some sequencesMap => .ok sequencesMap.keys

def getInstancesByHub (r : STHInfoRegister) (hostId : HostId) : Except String (List InstanceId) :=
  match r.hostsMap.get? hostId with
  | none => .error ("Host with id: " ++ hostId ++ " does not exist.")
  | some sequencesMap => .ok (sequencesMap.values.flatMap (·.keys))

end STHInfoRegister

inductive Op where
  | addHub (hostId : HostId)
  | removeHub (hostId : HostId)
  | addSequence (hostId : HostId) (seqId : SequenceId) (seqConfig : Option SequenceConfig)
  | deleteSequence (hostId : HostId) (seqId : SequenceId)
  | addInstance (hostId : HostId) (inst : Instance)
  | deleteInstance (hostId : HostId) (seqId : SequenceId) (instanceId : InstanceId)
  | clearHostEntities (hostId : HostId)

def Op.host : Op → HostId
  | .addHub h | .removeHub h | .addSequence h _ _ | .deleteSequence h _ | .addInstance h _
  | .deleteInstance h _ _ | .clearHostEntities h => h

/-- An operation; the one that throws leaves the register as it is. -/
def STHInfoRegister.apply (r : STHInfoRegister) : Op → STHInfoRegister
  | .addHub h => r.addHub h
  | .removeHub h => r.removeHub h
  | .addSequence h s config => r.addSequence h s config
  | .deleteSequence h s => r.deleteSequence h s
  | .addInstance h inst => (r.addInstance h inst).toOption.getD r
  | .deleteInstance h s i => r.deleteInstance h s i
  | .clearHostEntities h => r.clearHostEntities h

end TransformHub.Manager.SthInfo

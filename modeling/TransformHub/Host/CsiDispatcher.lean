import TransformHub.Host.InstancesStore
import TransformHub.Lib.Transition

/-!
# Instances of a Host

The life of instances: `CSIDispatcher.startRunner` and its handlers of the events of a controller,
the handlers of `Host` for the events of the dispatcher, and the startup entries that are required.
-/

namespace TransformHub.Host.Instances

/-! ## Data -/

/-- `CSIController`, with what it has told the dispatcher. -/
structure CSIController where
  id : String
  sequence : String
  instanceName : Option String
  /-- the startup entry and the number of the launch that it was created by; not in the code -/
  launch : Option (String × ℕ)
  /-- the dispatcher has accepted a `ping` of it -/
  connected : Bool
  terminated : Bool
  ended : Bool
deriving DecidableEq

/-- What `startRunner` takes from its caller; an empty name is none. -/
structure StartPayload where
  id : String
  sequence : String
  instanceName : Option String

inductive StartStage where
  /-- waits for `init` of the adapter -/
  | initializing
  /-- waits for `dispatch` of the adapter -/
  | dispatching
  /-- waits for the instance -/
  | connecting
  /-- waits for the readiness of the instance -/
  | established
  | settled
deriving DecidableEq

structure Start where
  payload : StartPayload
  launch : Option (String × ℕ)
  stage : StartStage

/-- What the Host sends the Manager about an instance: a status, or `GONE`. -/
structure InstanceInfo where
  /-- the controller that it is about; not in the message -/
  controller : ℕ
  id : String
  sequence : String
  gone : Bool

/-- What happens to a startup entry, as counts that are not in the code. -/
structure Account where
  launches : ℕ
  /-- a failure of the last launch has been observed -/
  failed : Bool
  /-- launches of which a failure has been observed -/
  failures : ℕ
  /-- restart attempts that have been taken -/
  restarts : ℕ
  stopRequests : ℕ
deriving DecidableEq

structure RequiredStartupEntry where
  sequenceId : String
  instanceName : Option String
  restartLimit : ℕ
  restartAttemptsRemaining : ℕ
  stableInstanceId : String
  launching : Bool
  currentInstanceId : Option String
  account : Account

structure HostState where
  /-- the sequences with their instances -/
  sequenceStore : OrderedMap String (List String)
  instancesStore : InstancesStore
  controllers : List CSIController
  starts : List Start
  /-- controllers whose sequence is being fetched before the Manager is told -/
  fetching : List ℕ
  /-- controllers whose `end` handler waits for the Manager to be told -/
  ending : List ℕ
  /-- whether the Manager is connected -/
  connected : Bool
  /-- what the Manager has been sent -/
  sent : List InstanceInfo
  requiredStartupEntries : OrderedMap String RequiredStartupEntry
  requiredStartupEntriesByInstanceId : OrderedMap String String
  /-- entries to launch again -/
  immediates : List String
  stopping : Bool

/-- `RUNNER_CHANNEL_INSTANCE_ID_PATTERN`. -/
def isChannelInstanceId (id : String) : Bool :=
  match id.toList with
  | [] => false
  | c :: cs =>
    c.isAlphanum && cs.length ≤ 62 && cs.all (fun c => c.isAlphanum || c = '-') &&
      cs.getLast?.all Char.isAlphanum

def RequiredStartupEntry.create (payload : StartPayload) (restartLimit : ℕ) :
    RequiredStartupEntry where
  sequenceId := payload.sequence
  instanceName := payload.instanceName
  restartLimit := restartLimit
  restartAttemptsRemaining := restartLimit
  stableInstanceId := payload.id
  launching := false
  currentInstanceId := none
  account := ⟨0, false, 0, 0, 0⟩

namespace HostState

def new : HostState where
  sequenceStore := .empty
  instancesStore := .new
  controllers := []
  starts := []
  fetching := []
  ending := []
  connected := true
  sent := []
  requiredStartupEntries := .empty
  requiredStartupEntriesByInstanceId := .empty
  immediates := []
  stopping := false

variable (s : HostState)

def updateController (ref : ℕ) (f : CSIController → CSIController) : HostState :=
  { s with controllers := s.controllers.modify ref f }

def updateEntry (key : String) (f : RequiredStartupEntry → RequiredStartupEntry) : HostState :=
  match s.requiredStartupEntries.get? key with
  | none => s
  | some entry => { s with requiredStartupEntries := s.requiredStartupEntries.set key (f entry) }

/-- The name of a startup entry or of a start is taken. -/
def nameConflict (instanceName : Option String) : Bool :=
  instanceName.any fun name => s.instancesStore.hasName name || s.instancesStore.has name

/-! ## `CSIDispatcher.startRunner` -/

/-- The id and the name are reserved, unless there is a conflict. An id that is reserved when the
name is found to be taken stays reserved. -/
def reserve (payload : StartPayload) : InstancesStore × Bool :=
  if !isChannelInstanceId payload.id || s.instancesStore.hasName payload.id then
    (s.instancesStore, false)
  else
    match s.instancesStore.reserveId payload.id with
    | none => (s.instancesStore, false)
    | some store =>
      match payload.instanceName with
      | none => (store, true)
      | some name =>
        if store.has name || store.hasReservedId name then (store, false)
        else
          match store.reserveName payload.id name with
          | none => (store, false)
          | some store => (store, true)

/-- `startRunner`, up to `init` of the adapter. -/
def startRunner (payload : StartPayload) (launch : Option (String × ℕ)) : HostState :=
  { s with
    instancesStore := (s.reserve payload).1
    starts := if (s.reserve payload).2 then s.starts ++ [⟨payload, launch, .initializing⟩] else s.starts }

/-- `catch` of `startRunner`. -/
def releaseStart (payload : StartPayload) : HostState :=
  let store := s.instancesStore.releaseId payload.id
  { s with
    instancesStore :=
      match payload.instanceName with
      | none => store
      | some name => store.unregisterName payload.id name }

def setStage (k : ℕ) (stage : StartStage) : HostState :=
  { s with starts := s.starts.modify k fun start => { start with stage := stage } }

def createCSIController (start : Start) : HostState :=
  { s with
    controllers := s.controllers ++
      [⟨start.payload.id, start.payload.sequence, start.payload.instanceName, start.launch, false,
        false, false⟩]
    instancesStore := s.instancesStore.set start.payload.id s.controllers.length }

/-! ## Required startup entries -/

/-- The failure of a launch is observed. Not in the code. -/
def observeFailure (launch : Option (String × ℕ)) : HostState :=
  match launch with
  | none => s
  | some (key, n) =>
    s.updateEntry key fun entry =>
      if n = entry.account.launches ∧ entry.account.failed = false ∧ s.stopping = false then
        { entry with
          account := { entry.account with
            failed := true
            failures := entry.account.failures + 1 } }
      else entry

def trackRequiredStartupInstance (key instanceId : String) : HostState :=
  match s.requiredStartupEntries.get? key with
  | none => s
  | some entry =>
    let byInstanceId :=
      match entry.currentInstanceId with
      | none => s.requiredStartupEntriesByInstanceId
      | some current => s.requiredStartupEntriesByInstanceId.delete current
    { s with
      requiredStartupEntries := s.requiredStartupEntries.set key
        { entry with currentInstanceId := some instanceId }
      requiredStartupEntriesByInstanceId := byInstanceId.set instanceId key }

def clearRequiredStartupInstanceTracking (key : String) : HostState :=
  match s.requiredStartupEntries.get? key with
  | none => s
  | some entry =>
    match entry.currentInstanceId with
    | none => s
    | some current =>
      { s with
        requiredStartupEntries := s.requiredStartupEntries.set key
          { entry with currentInstanceId := none }
        requiredStartupEntriesByInstanceId :=
          s.requiredStartupEntriesByInstanceId.delete current }

def entryByInstanceId (instanceId : String) : Option (String × RequiredStartupEntry) :=
  match s.requiredStartupEntriesByInstanceId.get? instanceId with
  | none => none
  | some key => (s.requiredStartupEntries.get? key).map fun entry => (key, entry)

/-- What `takeRequiredStartupEntryByInstanceId` leaves. -/
def takeRequiredStartupEntryByInstanceId (instanceId : String) : HostState :=
  let s' := { s with
    requiredStartupEntriesByInstanceId := s.requiredStartupEntriesByInstanceId.delete instanceId }
  match s.entryByInstanceId instanceId with
  | none => s'
  | some (key, entry) =>
    if entry.currentInstanceId = some instanceId then
      { s' with
        requiredStartupEntries := s.requiredStartupEntries.set key
          { entry with currentInstanceId := none } }
    else s'

/-- `handleRequiredStartupFailure`. The launch that `setImmediate` calls and the stop that is
requested are steps of their own. -/
def handleRequiredStartupFailure (key : String) : HostState :=
  match s.requiredStartupEntries.get? key with
  | none => s
  | some entry =>
    if s.stopping then s
    else if 0 < entry.restartAttemptsRemaining then
      { s with
        requiredStartupEntries := s.requiredStartupEntries.set key
          { entry with
            restartAttemptsRemaining := entry.restartAttemptsRemaining - 1
            account := { entry.account with restarts := entry.account.restarts + 1 } }
        immediates := s.immediates ++ [key] }
    else
      { s with
        requiredStartupEntries := s.requiredStartupEntries.set key
          { entry with
            account := { entry.account with stopRequests := entry.account.stopRequests + 1 } } }

def handleRequiredStartupInstanceExit (instanceId : String) : HostState :=
  if s.stopping then s
  else
    match s.entryByInstanceId instanceId with
    | none => s.takeRequiredStartupEntryByInstanceId instanceId
    | some (key, _) =>
      (s.takeRequiredStartupEntryByInstanceId instanceId).handleRequiredStartupFailure key

def cleanupRequiredStartupInstance (instanceId : String) : HostState :=
  if s.requiredStartupEntriesByInstanceId.has instanceId then
    match s.instancesStore.get? instanceId with
    | none => s
    | some ref =>
      let store :=
        match s.controllers[ref]?.bind CSIController.instanceName with
        | none => s.instancesStore
        | some name => s.instancesStore.unregisterName instanceId name
      { s with instancesStore := store.delete instanceId }
  else s

def launchFails (launch : String × ℕ) : HostState :=
  ((((s.observeFailure (some launch)).clearRequiredStartupInstanceTracking
    launch.1).handleRequiredStartupFailure launch.1).updateEntry launch.1
      fun entry => { entry with launching := false })

def launchSucceeds (key instanceId : String) : HostState :=
  (s.trackRequiredStartupInstance key instanceId).updateEntry key
    fun entry => { entry with launching := false }

/-- `launchRequiredStartupEntry`, up to what `startRunner` waits for. -/
def launchRequiredStartupEntry (key : String) : HostState :=
  match s.requiredStartupEntries.get? key with
  | none => s
  | some entry =>
    if s.stopping || entry.launching then s
    else
      let launch := (key, entry.account.launches + 1)
      let payload : StartPayload := ⟨entry.stableInstanceId, entry.sequenceId, entry.instanceName⟩
      let s := (s.updateEntry key fun entry =>
        { entry with
          launching := true
          account := { entry.account with
            launches := entry.account.launches + 1
            failed := false } }).trackRequiredStartupInstance key entry.stableInstanceId
      if !s.sequenceStore.has entry.sequenceId || s.nameConflict entry.instanceName then
        s.launchFails launch
      else if (s.reserve payload).2 then s.startRunner payload (some launch)
      else (s.startRunner payload (some launch)).launchFails launch

/-- `performStartup`, for a required entry. The keys of the entries are not used twice. -/
def performStartup (key : String) (payload : StartPayload) (restartLimit : ℕ) : HostState :=
  if s.requiredStartupEntries.has key || !s.sequenceStore.has payload.sequence ||
      s.nameConflict payload.instanceName then s
  else
    { s with
      requiredStartupEntries := s.requiredStartupEntries.set key
        (.create payload restartLimit) }.launchRequiredStartupEntry key

/-! ## Events of a controller -/

def sendInstanceInfo (ref : ℕ) (gone : Bool) : HostState :=
  match s.controllers[ref]? with
  | none => s
  | some c =>
    if s.connected then { s with sent := s.sent ++ [⟨ref, c.id, c.sequence, gone⟩] } else s

/-- `handleDispatcherEstablishedEvent`, up to the sequence that it may have to fetch. -/
def handleDispatcherEstablishedEvent (ref : ℕ) (c : CSIController) : HostState :=
  let store :=
    match (s.instancesStore.get? c.id).bind fun ref => s.controllers[ref]?.bind (·.instanceName) with
    | none => s.instancesStore
    | some name => s.instancesStore.registerName c.id name
  let s := { s with instancesStore := store }
  if !s.sequenceStore.has c.sequence && s.connected then { s with fetching := s.fetching ++ [ref] }
  else s.sendInstanceInfo ref false

/-- The calls of `startRunner` that wait for the instance go on. -/
def resolveStarts (instanceId : String) : HostState :=
  { s with
    starts := s.starts.map fun start =>
      if start.payload.id = instanceId ∧ start.stage = .connecting then
        { start with stage := .established }
      else start }

def pushInstance (c : CSIController) : HostState :=
  match s.sequenceStore.get? c.sequence with
  | none => s
  | some instances =>
    { s with sequenceStore := s.sequenceStore.set c.sequence (instances ++ [c.id]) }

/-- The dispatcher's handler of `ping`; it accepts the adapter that the Host runs with. -/
def onPing (ref : ℕ) (accepted : Bool) : HostState :=
  match s.controllers[ref]? with
  | none => s
  | some c =>
    if accepted then
      let s := (s.pushInstance c).updateController ref fun c => { c with connected := true }
      (s.handleDispatcherEstablishedEvent ref c).resolveStarts c.id
    else s

def handleDispatcherTerminatedEvent (ref : ℕ) (c : CSIController) : HostState :=
  if s.instancesStore.get? c.id = some ref then
    (s.cleanupRequiredStartupInstance c.id).handleRequiredStartupInstanceExit c.id
  else s

/-- The dispatcher's handler of `terminated`. -/
def onTerminated (ref : ℕ) : HostState :=
  match s.controllers[ref]? with
  | none => s
  | some c =>
    if c.terminated then s
    else
      ((s.updateController ref fun c => { c with terminated := true }).observeFailure
        c.launch).handleDispatcherTerminatedEvent ref c

/-- `handleDispatcherEndEvent`, up to the message to the Manager. -/
def handleDispatcherEndEvent (ref : ℕ) (c : CSIController) : HostState :=
  if s.instancesStore.get? c.id = some ref then
    let s := (s.cleanupRequiredStartupInstance c.id).sendInstanceInfo ref true
    { s with ending := s.ending ++ [ref] }
  else s

/-- The stores forget an instance that has ended, unless its id belongs to another one. -/
def removeInstance (ref : ℕ) (c : CSIController) : HostState :=
  if s.instancesStore.get? c.id = some ref then
    { s with
      sequenceStore :=
        match s.sequenceStore.get? c.sequence with
        | none => s.sequenceStore
        | some instances => s.sequenceStore.set c.sequence (instances.filter (· ≠ c.id))
      instancesStore := s.instancesStore.delete c.id }
  else s

/-- The dispatcher's handler of `end`. -/
def onEnd (ref : ℕ) : HostState :=
  match s.controllers[ref]? with
  | none => s
  | some c =>
    if c.terminated && !c.ended then
      ((s.updateController ref fun c => { c with ended := true }).handleDispatcherEndEvent ref
        c).removeInstance ref c
    else s

/-! ## Steps -/

/-- A call of `startRunner` ends with no instance. -/
def startFails (start : Start) : HostState :=
  match start.launch with
  | none => s
  | some launch => s.launchFails launch

/-- A call of `startRunner` ends with an instance. -/
def startSucceeds (start : Start) : HostState :=
  match start.launch with
  | none => s
  | some launch => s.launchSucceeds launch.1 start.payload.id

end HostState

inductive Action where
  /-- a sequence is stored, or replaced -/
  | addSequence (id : String)
  | deleteSequence (id : String)
  /-- an instance is started that no startup entry requires -/
  | startRunner (payload : StartPayload)
  | performStartup (key : String) (payload : StartPayload) (restartLimit : ℕ)
  | initialized (k : ℕ)
  | initFails (k : ℕ)
  /-- the adapter has dispatched the instance -/
  | dispatched (k : ℕ)
  | ready (k : ℕ)
  /-- the dispatch fails, or the instance exits before it is established or does not become ready -/
  | startFails (k : ℕ)
  | ping (ref : ℕ) (accepted : Bool)
  | terminated (ref : ℕ)
  | ended (ref : ℕ)
  /-- a sequence has been fetched, or cannot be -/
  | fetched (i : ℕ)
  /-- the Manager has been told of the end of an instance -/
  | endSent (i : ℕ)
  /-- what `setImmediate` was called with runs -/
  | immediate
  | stop
  /-- the connection to the Manager is made or lost -/
  | connection (connected : Bool)

/-- The call of `startRunner` when it is at a stage. -/
def HostState.startAt (s : HostState) (k : ℕ) (stages : List StartStage) : Option Start :=
  match s.starts[k]? with
  | none => none
  | some start => if stages.contains start.stage then some start else none

def HostState.next (s : HostState) : Action → HostState
  | .addSequence id => { s with sequenceStore := s.sequenceStore.set id [] }
  | .deleteSequence id => { s with sequenceStore := s.sequenceStore.delete id }
  | .startRunner payload => s.startRunner payload none
  | .performStartup key payload restartLimit => s.performStartup key payload restartLimit
  | .initialized k =>
    match s.startAt k [.initializing] with
    | none => s
    | some _ => s.setStage k .dispatching
  | .initFails k =>
    -- outside of `try`: nothing is released
    match s.startAt k [.initializing] with
    | none => s
    | some start => (s.setStage k .settled).startFails start
  | .dispatched k =>
    match s.startAt k [.dispatching] with
    | none => s
    | some start => (s.setStage k .connecting).createCSIController start
  | .ready k =>
    match s.startAt k [.established] with
    | none => s
    | some start => (s.setStage k .settled).startSucceeds start
  | .startFails k =>
    match s.startAt k [.dispatching, .connecting, .established] with
    | none => s
    | some start => ((s.setStage k .settled).releaseStart start.payload).startFails start
  | .ping ref accepted => s.onPing ref accepted
  | .terminated ref => s.onTerminated ref
  | .ended ref => s.onEnd ref
  | .fetched i =>
    match s.fetching[i]? with
    | none => s
    | some ref => { s with fetching := s.fetching.eraseIdx i }.sendInstanceInfo ref false
  | .endSent i =>
    match s.ending[i]? with
    | none => s
    | some ref =>
      let s := { s with ending := s.ending.eraseIdx i }
      match s.controllers[ref]? with
      | none => s
      | some c => s.handleRequiredStartupInstanceExit c.id
  | .immediate =>
    match s.immediates with
    | [] => s
    | key :: immediates => { s with immediates := immediates }.launchRequiredStartupEntry key
  | .stop => { s with stopping := true }
  | .connection connected => { s with connected := connected }

end TransformHub.Host.Instances

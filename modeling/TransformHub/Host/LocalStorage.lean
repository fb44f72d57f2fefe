import TransformHub.Lib.OrderedMap
import TransformHub.Lib.Transition

/-!
# Local storage of sequences

The updates of the storage that all instances of a Host share: `applyUpdate` and `broadcastUpdate`
of `csi-controller.ts`, what `start` sends a new instance, and the cache of a runner.
-/

namespace TransformHub.Host.LocalStorage

def CLEAR : String := "__CLEAR__"

/-- The payload of `STORAGE_UPDATE`. -/
structure Update where
  key : String
  value : Option String

/-- What the Host sends a runner about the storage. -/
inductive ControlMessage where
  | storage (values : OrderedMap String String)
  | storageUpdate (update : Update)

/-- How far `start` has come with the storage. -/
inductive StorageRead where
  /-- `getAllItems` has been called -/
  | reading
  /-- it has seen the storage after so many operations, and has not answered yet -/
  | read (effects : ℕ) (values : OrderedMap String String)
  | sent
deriving DecidableEq

/-- An instance in the store, with what is on its way to the runner and the cache of the runner. -/
structure Instance where
  storage : StorageRead
  control : List ControlMessage
  localCache : OrderedMap String (Option String)

structure SharedStorage where
  /-- what the storage adapter holds -/
  persisted : OrderedMap String String
  /-- the number of operations that have taken effect -/
  effects : ℕ
  /-- updates whose operation has not taken effect -/
  called : List Update
  /-- updates whose operation has, with its number, and that have not been broadcast -/
  applied : List (ℕ × Update)
  instanceStore : OrderedMap String Instance
  /-- updates on their way from the runners -/
  monitoring : OrderedMap String (List Update)

/-- The operation of the adapter that `applyUpdate` calls. -/
def Update.persist (u : Update) (items : OrderedMap String String) : OrderedMap String String :=
  if u.key = CLEAR ∧ u.value = none then .empty
  else
    match u.value with
    | none => items.delete u.key
    | some value => items.set u.key value

def handleBroadcastUpdate (localCache : OrderedMap String (Option String)) (u : Update) :
    OrderedMap String (Option String) :=
  if u.key = CLEAR then .empty else localCache.set u.key u.value

def onStorageMessage (localCache : OrderedMap String (Option String))
    (values : OrderedMap String String) : OrderedMap String (Option String) :=
  (values.mapValues some).entries.foldl (fun cache e => cache.set e.1 e.2) localCache

namespace Instance

def new : Instance := ⟨.reading, [], .empty⟩

def push (inst : Instance) (message : ControlMessage) : Instance :=
  { inst with control := inst.control ++ [message] }

def getItem (inst : Instance) (key : String) : Option String := (inst.localCache.get? key).join

/-- The runner gets the next message. -/
def deliver (inst : Instance) : Instance :=
  match inst.control with
  | [] => inst
  | .storage values :: rest =>
    { inst with control := rest, localCache := onStorageMessage inst.localCache values }
  | .storageUpdate u :: rest =>
    { inst with control := rest, localCache := handleBroadcastUpdate inst.localCache u }

end Instance

namespace SharedStorage

/-- A Host whose storage holds something from the start. -/
def start (items : OrderedMap String String) : SharedStorage where
  persisted := items
  effects := 0
  called := []
  applied := []
  instanceStore := .empty
  monitoring := .empty

section Steps

variable (s : SharedStorage)

def updateInstance (id : String) (f : Instance → Instance) : SharedStorage :=
  match s.instanceStore.get? id with
  | none => s
  | some inst => { s with instanceStore := s.instanceStore.set id (f inst) }

def startInstance (id : String) : SharedStorage :=
  if s.instanceStore.has id then s
  else { s with instanceStore := s.instanceStore.set id .new }

/-- A runner writes an update. -/
def send (id : String) (u : Update) : SharedStorage :=
  if s.instanceStore.has id then
    { s with monitoring := s.monitoring.set id ((s.monitoring.get? id).getD [] ++ [u]) }
  else s

/-- The handler of the next update of a runner calls the adapter. -/
def handle (id : String) : SharedStorage :=
  match s.monitoring.get? id with
  | some (u :: rest) => { s with monitoring := s.monitoring.set id rest, called := s.called ++ [u] }
  | _ => s

def takesEffect (i : ℕ) : SharedStorage :=
  match s.called[i]? with
  | none => s
  | some u =>
    { s with
      called := s.called.eraseIdx i
      persisted := u.persist s.persisted
      effects := s.effects + 1
      applied := s.applied ++ [(s.effects, u)] }

def fails (i : ℕ) : SharedStorage := { s with called := s.called.eraseIdx i }

/-- The adapter has answered: `broadcastUpdate`. -/
def broadcastUpdate (i : ℕ) : SharedStorage :=
  match s.applied[i]? with
  | none => s
  | some (_, u) =>
    { s with
      applied := s.applied.eraseIdx i
      instanceStore := s.instanceStore.mapValues fun inst => inst.push (.storageUpdate u) }

/-- `getAllItems` sees the storage. -/
def reads (id : String) : SharedStorage :=
  s.updateInstance id fun inst =>
    match inst.storage with
    | .reading => { inst with storage := .read s.effects s.persisted }
    | _ => inst

/-- `getAllItems` has answered: `sendFullStorageState`. -/
def sendFullStorageState (id : String) : SharedStorage :=
  s.updateInstance id fun inst =>
    match inst.storage with
    | .read _ values => { inst.push (.storage values) with storage := .sent }
    | _ => inst

end Steps

end SharedStorage

/-! ## Runs -/

inductive Action where
  | start (id : String)
  | ended (id : String)
  | send (id : String) (u : Update)
  | handle (id : String)
  | takesEffect (i : ℕ)
  | fails (i : ℕ)
  | broadcast (i : ℕ)
  | reads (id : String)
  | storageSent (id : String)
  | deliver (id : String)

def SharedStorage.next (s : SharedStorage) : Action → SharedStorage
  | .start id => s.startInstance id
  | .ended id => { s with instanceStore := s.instanceStore.delete id }
  | .send id u => s.send id u
  | .handle id => s.handle id
  | .takesEffect i => s.takesEffect i
  | .fails i => s.fails i
  | .broadcast i => s.broadcastUpdate i
  | .reads id => s.reads id
  | .storageSent id => s.sendFullStorageState id
  | .deliver id => s.updateInstance id .deliver

def system (items : OrderedMap String String) : System SharedStorage Action :=
  .ofFun (.start items) SharedStorage.next

end TransformHub.Host.LocalStorage

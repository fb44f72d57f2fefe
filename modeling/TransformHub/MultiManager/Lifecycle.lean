import TransformHub.Js.Text
import TransformHub.Lib.OrderedMap
import TransformHub.Lib.Transition

/-!
# The Managers of a MultiManager

`startManagers`, `handleStartManagerRequest`, `stopManager` and `stop` of `multi-manager.ts`.
-/

namespace TransformHub.MultiManager

/-! ## Configurations -/

structure Verser2Configuration where
  enabled : Bool
  controlIngress : Bool
deriving DecidableEq

structure ManagerConfiguration where
  id : String
  verser2 : Verser2Configuration
deriving DecidableEq

structure GivenConfiguration where
  id : Option String
  verser2 : Option Verser2Configuration

/-- `{ ...defaultConfig, ...given }`. -/
def GivenConfiguration.withDefaults (given : GivenConfiguration)
    (defaultConfig : ManagerConfiguration) : ManagerConfiguration where
  id := given.id.getD defaultConfig.id
  verser2 := given.verser2.getD defaultConfig.verser2

/-- `config.manager`. -/
inductive InitialManager where
  | id (id : String)
  | object (given : GivenConfiguration)
  | list (given : List GivenConfiguration)

/-- The configurations that `startManagers` starts. -/
def managerConfigs (defaultConfig : ManagerConfiguration) :
    InitialManager → List ManagerConfiguration
  | .id id => if Js.trim id = "" then [] else [{ defaultConfig with id }]
  -- what `forEach` makes of the elements goes nowhere
  | .list _ => []
  | .object given => [given.withDefaults defaultConfig]

/-! ## Managers -/

/-- How far the start of a Manager is: what it awaits. -/
inductive StartStage where
  /-- `main` of a Manager that was requested -/
  | main
  /-- `startedPromise` -/
  | started
  | broker
  | guest
  /-- the guest at the control ingress -/
  | control
  /-- the peers that are closed when the last one cannot be attached -/
  | undo
  /-- the peers are attached -/
  | add
  /-- `main` of a Manager that is in the store -/
  | awaitMain
  | done
deriving DecidableEq

inductive MainState where
  | running
  | resolved
  | rejected
deriving DecidableEq

structure ManagerEntry where
  config : ManagerConfiguration
  /-- it was started by `startManagers` -/
  initial : Bool
  stage : StartStage
  main : MainState
  /-- `stop` of the Manager has settled -/
  stopped : Bool
  /-- what is attached and has not been closed -/
  broker : Bool
  guest : Bool
  control : Bool

namespace ManagerEntry

/-- Its `main` was called and has not failed, and it was not stopped. -/
def Live (e : ManagerEntry) : Prop := e.main ≠ .rejected ∧ e.stopped = false

instance (e : ManagerEntry) : Decidable e.Live := inferInstanceAs (Decidable (_ ≠ _ ∧ _ = _))

def Detached (e : ManagerEntry) : Prop := e.broker = false ∧ e.guest = false ∧ e.control = false

/-- Its start is not over. A start that waits for a Manager whose `main` has failed never goes
on. -/
def InProgress (e : ManagerEntry) : Prop :=
  e.stage ≠ .done ∧ ¬ (e.stage = .started ∧ e.main = .rejected)

instance (e : ManagerEntry) : Decidable e.InProgress := inferInstanceAs (Decidable (_ ∧ ¬ _))

end ManagerEntry

/-- How far a call of `stopManager` is. -/
inductive StopStage where
  | stop
  | detach
  /-- the broker and the guest are closed -/
  | control
  | remove
  | done
deriving DecidableEq

structure StopCall where
  id : String
  manager : ℕ
  stage : StopStage

/-- How far `stop` is. -/
inductive Shutdown where
  | notCalled
  /-- the guests at the control ingress are closed -/
  | guests
  | controlHost
  | handles
  | dataHost
  /-- the Managers that were listed, and those whose `stop` has not settled -/
  | managers (listed left : List ℕ)
  | server
  | completed
  | failed
deriving DecidableEq

structure MultiManagerState where
  verser2Host : Bool
  controlIngressHost : Bool
  managers : List ManagerEntry
  managersStore : OrderedMap String ℕ
  managerVerser2Handles : OrderedMap String ℕ
  controlIngressGuests : OrderedMap String ℕ
  stopCalls : List StopCall
  shutdown : Shutdown

inductive Action where
  | startManagers (manager : InitialManager)
  /-- a start request, once it is known whether the machine is overloaded -/
  | startRequest (config : ManagerConfiguration) (overloaded : Bool)
  | mainSettles (m : ℕ) (ok : Bool)
  | peerSettles (m : ℕ) (ok : Bool)
  /-- the start goes on after what needs no answer -/
  | startGoesOn (m : ℕ)
  | stopManager (id : String)
  /-- what a call of `stopManager` awaits settles -/
  | stopManagerGoesOn (k : ℕ) (ok : Bool)
  | stop
  /-- what `stop` awaits settles -/
  | stopGoesOn (ok : Bool)
  /-- `stop` of a listed Manager settles -/
  | managerStops (m : ℕ)

namespace MultiManagerState

def new (verser2Host controlIngressHost : Bool) : MultiManagerState where
  verser2Host := verser2Host
  controlIngressHost := controlIngressHost
  managers := []
  managersStore := .empty
  managerVerser2Handles := .empty
  controlIngressGuests := .empty
  stopCalls := []
  shutdown := .notCalled

variable (s : MultiManagerState)

def update (p : ℕ → Bool) (f : ManagerEntry → ManagerEntry) : MultiManagerState :=
  { s with managers := s.managers.mapIdx fun i e => if p i then f e else e }

def setStage (m : ℕ) (stage : StartStage) : MultiManagerState :=
  s.update (· = m) fun e => { e with stage }

/-! ### Starts -/

/-- The first stage of `attachManagerVerser2Peers`. -/
def attachStage (config : ManagerConfiguration) : StartStage :=
  if s.verser2Host && config.verser2.enabled then .started else .add

/-- A Manager is made and its `main` is called. -/
def create (config : ManagerConfiguration) (initial : Bool) : MultiManagerState :=
  { s with
    managers := s.managers ++
      [{ config, initial
         stage := if initial then s.attachStage config else .main
         main := .running
         stopped := false
         broker := false
         guest := false
         control := false }] }

def startManager (config : ManagerConfiguration) : MultiManagerState :=
  if Js.trim config.id = "" || s.managersStore.has config.id then s else s.create config true

def failStart (m : ℕ) (e : ManagerEntry) : MultiManagerState :=
  if e.initial then
    { s.setStage m .done with managersStore := s.managersStore.delete e.config.id }
  else s.setStage m .done

/-- The first part of `detachManagerVerser2Peers`: the broker and the guest of an id. -/
def closeHandles (id : String) : MultiManagerState :=
  { s.update (fun i => s.managerVerser2Handles.get? id = some i)
      (fun e => { e with broker := false, guest := false }) with
    managerVerser2Handles := s.managerVerser2Handles.delete id }

/-- The second part: the guest at the control ingress. -/
def closeControl (id : String) : MultiManagerState :=
  { s.update (fun i => s.controlIngressGuests.get? id = some i) (fun e => { e with control := false })
    with controlIngressGuests := s.controlIngressGuests.delete id }

def peerSettles (m : ℕ) (e : ManagerEntry) (ok : Bool) : MultiManagerState :=
  match e.stage with
  | .broker =>
    if ok && s.verser2Host then s.update (· = m) fun e => { e with broker := true, stage := .guest }
    else if ok then (s.update (· = m) fun e => { e with broker := true }).failStart m e
    else s.failStart m e
  | .guest =>
    if ok then
      { s.update (· = m) fun e =>
          { e with
            guest := true
            stage := if s.controlIngressHost && e.config.verser2.controlIngress then .control
              else .add } with
        managerVerser2Handles := s.managerVerser2Handles.set e.config.id m }
    else s.failStart m e
  | .control =>
    if ok then
      { s.update (· = m) fun e => { e with control := true, stage := .add } with
        controlIngressGuests := s.controlIngressGuests.set e.config.id m }
    else if s.managerVerser2Handles.has e.config.id then
      (s.closeHandles e.config.id).setStage m .undo
    else s.failStart m e
  | _ => s

def mainSettles (m : ℕ) (e : ManagerEntry) (ok : Bool) : MultiManagerState :=
  if e.main ≠ .running then s
  else if ok then
    s.update (· = m) fun e =>
      { e with
        main := .resolved
        stage := if e.stage = .main then s.attachStage e.config else e.stage }
  else
    s.update (· = m) fun e =>
      { e with main := .rejected, stage := if e.stage = .main then .done else e.stage }

def startGoesOn (m : ℕ) (e : ManagerEntry) : MultiManagerState :=
  match e.stage with
  | .started =>
    if e.main ≠ .resolved then s
    else if s.verser2Host then s.setStage m .broker
    else s.failStart m e
  | .undo => (s.closeControl e.config.id).failStart m e
  | .add =>
    { s.setStage m (if e.initial then .awaitMain else .done) with
      managersStore := s.managersStore.set e.config.id m }
  | .awaitMain =>
    match e.main with
    | .running => s
    | .resolved => s.setStage m .done
    | .rejected => s.failStart m e
  | _ => s

/-! ### Stops -/

def setStopStage (k : ℕ) (stage : StopStage) : MultiManagerState :=
  { s with stopCalls := s.stopCalls.modify k fun c => { c with stage } }

def stopManager (id : String) : MultiManagerState :=
  match s.managersStore.get? id with
  | none => s
  | some m => { s with stopCalls := s.stopCalls ++ [⟨id, m, .stop⟩] }

/-- What a call of `stopManager` awaits settles. -/
def stopManagerGoesOn (k : ℕ) (c : StopCall) (ok : Bool) : MultiManagerState :=
  match c.stage with
  | .stop =>
    (s.update (· = c.manager) fun e => { e with stopped := true }).setStopStage k
      (if ok then .detach else .done)
  | .detach =>
    if s.managerVerser2Handles.has c.id then (s.closeHandles c.id).setStopStage k .control
    else s.setStopStage k .remove
  | .control => (s.closeControl c.id).setStopStage k .remove
  | .remove => { s.setStopStage k .done with managersStore := s.managersStore.delete c.id }
  | .done => s

/-- `stop`, up to its first await. -/
def stop : MultiManagerState :=
  match s.shutdown with
  | .notCalled =>
    { s.update (fun i => s.controlIngressGuests.values.contains i)
        (fun e => { e with control := false }) with
      controlIngressGuests := .empty
      shutdown := .guests }
  | _ => s

/-- What `stop` awaits settles. -/
def stopGoesOn (ok : Bool) : MultiManagerState :=
  match s.shutdown with
  | .guests => { s with controlIngressHost := false, shutdown := .controlHost }
  | .controlHost =>
    if ok then
      { s.update (fun i => s.managerVerser2Handles.values.contains i)
          (fun e => { e with broker := false, guest := false }) with
        managerVerser2Handles := .empty
        shutdown := .handles }
    else { s with shutdown := .failed }
  | .handles => { s with verser2Host := false, shutdown := .dataHost }
  | .dataHost =>
    if ok then
      { s with shutdown := .managers s.managersStore.values s.managersStore.values }
    else { s with shutdown := .failed }
  | .managers listed [] =>
    { s with
      managersStore := s.managersStore.deleteAll
        (listed.filterMap fun m => (s.managers[m]?).map fun e => e.config.id)
      shutdown := .server }
  | .server => { s with shutdown := .completed }
  | _ => s

def next (defaultConfig : ManagerConfiguration) : Action → MultiManagerState
  | .startManagers manager => (managerConfigs defaultConfig manager).foldl startManager s
  | .startRequest config overloaded =>
    if overloaded || s.managersStore.has config.id then s else s.create config false
  | .mainSettles m ok =>
    match s.managers[m]? with
    | none => s
    | some e => s.mainSettles m e ok
  | .peerSettles m ok =>
    match s.managers[m]? with
    | none => s
    | some e => s.peerSettles m e ok
  | .startGoesOn m =>
    match s.managers[m]? with
    | none => s
    | some e => s.startGoesOn m e
  | .stopManager id => s.stopManager id
  | .stopManagerGoesOn k ok =>
    match s.stopCalls[k]? with
    | none => s
    | some c => s.stopManagerGoesOn k c ok
  | .stop => s.stop
  | .stopGoesOn ok => s.stopGoesOn ok
  | .managerStops m =>
    match s.shutdown with
    | .managers listed left =>
      if m ∈ left then
        { s.update (· = m) fun e => { e with stopped := true } with
          shutdown := .managers listed (left.filter (· ≠ m)) }
      else s
    | _ => s

end MultiManagerState

end TransformHub.MultiManager

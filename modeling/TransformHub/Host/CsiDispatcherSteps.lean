import TransformHub.Host.CsiDispatcher

/-!
# What the steps of a Host leave alone

The startup entries and the calls of `startRunner` on the one side, the sequences, the controllers
and the messages to the Manager on the other: apart from the handlers of `terminated` and `end`, a
function changes one side only.
-/

namespace TransformHub.Host.Instances

/-- A step of `startRunner` or of the startup entries. -/
def Action.isStartup : Action → Bool
  | .addSequence _ | .deleteSequence _ | .dispatched _ | .ping _ _ | .terminated _ | .ended _
  | .fetched _ | .connection _ => false
  | _ => true

namespace HostState

/-! ## The side of the instances -/

/-- The sequences and the controllers are the same. -/
structure SameRegistry (s s' : HostState) : Prop where
  sequenceStore : s'.sequenceStore = s.sequenceStore
  controllers : s'.controllers = s.controllers
  registered : s'.instancesStore.controllers = s.instancesStore.controllers

/-- And so are the messages to the Manager. -/
structure SameInstances (s s' : HostState) : Prop extends SameRegistry s s' where
  fetching : s'.fetching = s.fetching
  connected : s'.connected = s.connected
  sent : s'.sent = s.sent

section SameInstances

variable {s s' s'' : HostState}

theorem SameRegistry.trans (h : s.SameRegistry s') (h' : s'.SameRegistry s'') :
    s.SameRegistry s'' where
  sequenceStore := h'.sequenceStore.trans h.sequenceStore
  controllers := h'.controllers.trans h.controllers
  registered := h'.registered.trans h.registered

theorem SameInstances.refl (s : HostState) : s.SameInstances s := ⟨⟨rfl, rfl, rfl⟩, rfl, rfl, rfl⟩

theorem SameInstances.trans (h : s.SameInstances s') (h' : s'.SameInstances s'') :
    s.SameInstances s'' where
  toSameRegistry := h.toSameRegistry.trans h'.toSameRegistry
  fetching := h'.fetching.trans h.fetching
  connected := h'.connected.trans h.connected
  sent := h'.sent.trans h.sent

variable (s)

theorem sameInstances_updateEntry (key : String)
    (f : RequiredStartupEntry → RequiredStartupEntry) : s.SameInstances (s.updateEntry key f) := by
  unfold updateEntry
  split <;> exact ⟨⟨rfl, rfl, rfl⟩, rfl, rfl, rfl⟩

theorem controllers_reserve (payload : StartPayload) :
    (s.reserve payload).1.controllers = s.instancesStore.controllers := by
  unfold reserve
  split_ifs with hid
  · rfl
  · split
    · rfl
    · rename_i store hstore
      have hcontrollers := InstancesStore.controllers_reserveId hstore
      split
      · exact hcontrollers
      · split_ifs with htaken
        · exact hcontrollers
        · split
          · exact hcontrollers
          · rename_i hname
            exact (InstancesStore.controllers_reserveName hname).trans hcontrollers

theorem sameInstances_startRunner (payload : StartPayload) (launch : Option (String × ℕ)) :
    s.SameInstances (s.startRunner payload launch) :=
  ⟨⟨rfl, rfl, s.controllers_reserve payload⟩, rfl, rfl, rfl⟩

theorem sameInstances_releaseStart (payload : StartPayload) :
    s.SameInstances (s.releaseStart payload) := by
  refine ⟨⟨rfl, rfl, ?_⟩, rfl, rfl, rfl⟩
  unfold releaseStart
  dsimp only
  split
  · rfl
  · exact InstancesStore.controllers_unregisterName _ _ _

theorem sameInstances_setStage (k : ℕ) (stage : StartStage) :
    s.SameInstances (s.setStage k stage) :=
  ⟨⟨rfl, rfl, rfl⟩, rfl, rfl, rfl⟩

theorem sameInstances_resolveStarts (instanceId : String) :
    s.SameInstances (s.resolveStarts instanceId) :=
  ⟨⟨rfl, rfl, rfl⟩, rfl, rfl, rfl⟩

theorem sameInstances_observeFailure (launch : Option (String × ℕ)) :
    s.SameInstances (s.observeFailure launch) := by
  unfold observeFailure
  split
  · exact ⟨⟨rfl, rfl, rfl⟩, rfl, rfl, rfl⟩
  · exact s.sameInstances_updateEntry _ _

theorem sameInstances_track (key instanceId : String) :
    s.SameInstances (s.trackRequiredStartupInstance key instanceId) := by
  unfold trackRequiredStartupInstance
  split <;> exact ⟨⟨rfl, rfl, rfl⟩, rfl, rfl, rfl⟩

theorem sameInstances_clearTracking (key : String) :
    s.SameInstances (s.clearRequiredStartupInstanceTracking key) := by
  unfold clearRequiredStartupInstanceTracking
  split
  · exact ⟨⟨rfl, rfl, rfl⟩, rfl, rfl, rfl⟩
  · split <;> exact ⟨⟨rfl, rfl, rfl⟩, rfl, rfl, rfl⟩

theorem sameInstances_take (instanceId : String) :
    s.SameInstances (s.takeRequiredStartupEntryByInstanceId instanceId) := by
  unfold takeRequiredStartupEntryByInstanceId
  dsimp only
  split
  · exact ⟨⟨rfl, rfl, rfl⟩, rfl, rfl, rfl⟩
  · split_ifs <;> exact ⟨⟨rfl, rfl, rfl⟩, rfl, rfl, rfl⟩

theorem sameInstances_handleRequiredStartupFailure (key : String) :
    s.SameInstances (s.handleRequiredStartupFailure key) := by
  unfold handleRequiredStartupFailure
  split
  · exact ⟨⟨rfl, rfl, rfl⟩, rfl, rfl, rfl⟩
  · split_ifs <;> exact ⟨⟨rfl, rfl, rfl⟩, rfl, rfl, rfl⟩

theorem sameInstances_handleExit (instanceId : String) :
    s.SameInstances (s.handleRequiredStartupInstanceExit instanceId) := by
  unfold handleRequiredStartupInstanceExit
  split_ifs
  · exact ⟨⟨rfl, rfl, rfl⟩, rfl, rfl, rfl⟩
  · split
    · exact s.sameInstances_take instanceId
    · exact (s.sameInstances_take instanceId).trans
        (sameInstances_handleRequiredStartupFailure _ _)

theorem sameInstances_launchFails (launch : String × ℕ) : s.SameInstances (s.launchFails launch) :=
  (((s.sameInstances_observeFailure (some launch)).trans (sameInstances_clearTracking _ _)).trans
    (sameInstances_handleRequiredStartupFailure _ _)).trans (sameInstances_updateEntry _ _ _)

theorem sameInstances_launchSucceeds (key instanceId : String) :
    s.SameInstances (s.launchSucceeds key instanceId) :=
  (s.sameInstances_track key instanceId).trans (sameInstances_updateEntry _ _ _)

theorem sameInstances_launchRequiredStartupEntry (key : String) :
    s.SameInstances (s.launchRequiredStartupEntry key) := by
  unfold launchRequiredStartupEntry
  split
  · exact ⟨⟨rfl, rfl, rfl⟩, rfl, rfl, rfl⟩
  · rename_i entry hentry
    split_ifs with hskip
    · exact ⟨⟨rfl, rfl, rfl⟩, rfl, rfl, rfl⟩
    · dsimp only
      have hlaunch := (s.sameInstances_updateEntry key fun entry =>
        { entry with
          launching := true
          account := { entry.account with
            launches := entry.account.launches + 1
            failed := false } }).trans
        (sameInstances_track _ key entry.stableInstanceId)
      split_ifs with hconflict hreserve
      · exact hlaunch.trans (sameInstances_launchFails _ _)
      · exact hlaunch.trans (sameInstances_startRunner _ _ _)
      · exact (hlaunch.trans (sameInstances_startRunner _ _ _)).trans (sameInstances_launchFails _ _)

theorem sameInstances_performStartup (key : String) (payload : StartPayload) (restartLimit : ℕ) :
    s.SameInstances (s.performStartup key payload restartLimit) := by
  unfold performStartup
  split_ifs
  · exact ⟨⟨rfl, rfl, rfl⟩, rfl, rfl, rfl⟩
  · have hlaunch := sameInstances_launchRequiredStartupEntry
      { s with
        requiredStartupEntries := s.requiredStartupEntries.set key
          (.create payload restartLimit) } key
    exact { hlaunch with }

theorem sameInstances_startFails (start : Start) : s.SameInstances (s.startFails start) := by
  unfold startFails
  split
  · exact ⟨⟨rfl, rfl, rfl⟩, rfl, rfl, rfl⟩
  · exact s.sameInstances_launchFails _

theorem sameInstances_startSucceeds (start : Start) : s.SameInstances (s.startSucceeds start) := by
  unfold startSucceeds
  split
  · exact ⟨⟨rfl, rfl, rfl⟩, rfl, rfl, rfl⟩
  · exact s.sameInstances_launchSucceeds _ _

theorem sameInstances_next {a : Action} (ha : a.isStartup = true) : s.SameInstances (s.next a) := by
  cases a with
  | startRunner payload => exact s.sameInstances_startRunner payload none
  | performStartup key payload restartLimit =>
    exact s.sameInstances_performStartup key payload restartLimit
  | initialized k =>
    simp only [next]
    split <;> exact ⟨⟨rfl, rfl, rfl⟩, rfl, rfl, rfl⟩
  | initFails k =>
    simp only [next]
    split
    · exact .refl s
    · exact (s.sameInstances_setStage k .settled).trans (sameInstances_startFails _ _)
  | ready k =>
    simp only [next]
    split
    · exact .refl s
    · exact (s.sameInstances_setStage k .settled).trans (sameInstances_startSucceeds _ _)
  | startFails k =>
    simp only [next]
    split
    · exact .refl s
    · exact ((s.sameInstances_setStage k .settled).trans (sameInstances_releaseStart _ _)).trans
        (sameInstances_startFails _ _)
  | endSent i =>
    simp only [next]
    split
    · exact .refl s
    · split
      · exact ⟨⟨rfl, rfl, rfl⟩, rfl, rfl, rfl⟩
      · rename_i c hc
        have hexit := sameInstances_handleExit { s with ending := s.ending.eraseIdx i } c.id
        exact { hexit with }
  | immediate =>
    simp only [next]
    split
    · exact .refl s
    · rename_i key immediates himm
      have hlaunch := sameInstances_launchRequiredStartupEntry { s with immediates := immediates }
        key
      exact { hlaunch with }
  | stop => exact ⟨⟨rfl, rfl, rfl⟩, rfl, rfl, rfl⟩
  | addSequence | deleteSequence | dispatched | ping | terminated | ended | fetched | connection =>
    cases ha

theorem sameRegistry_sendInstanceInfo (ref : ℕ) (gone : Bool) :
    s.SameRegistry (s.sendInstanceInfo ref gone) := by
  unfold sendInstanceInfo
  split
  · exact ⟨rfl, rfl, rfl⟩
  · split_ifs <;> exact ⟨rfl, rfl, rfl⟩

/-- The store when the controller of an id takes its name. -/
def establishedStore (id : String) : InstancesStore :=
  match (s.instancesStore.get? id).bind fun ref => s.controllers[ref]?.bind (·.instanceName) with
  | none => s.instancesStore
  | some name => s.instancesStore.registerName id name

theorem controllers_establishedStore (id : String) :
    (s.establishedStore id).controllers = s.instancesStore.controllers := by
  unfold establishedStore
  split
  · rfl
  · exact InstancesStore.controllers_registerName _ _ _

theorem established_eq (ref : ℕ) (c : CSIController) :
    s.handleDispatcherEstablishedEvent ref c =
      if (!s.sequenceStore.has c.sequence && s.connected) = true then
        { s with
          instancesStore := s.establishedStore c.id
          fetching := s.fetching ++ [ref] }
      else { s with instancesStore := s.establishedStore c.id }.sendInstanceInfo ref false :=
  rfl

theorem sameRegistry_established (ref : ℕ) (c : CSIController) :
    s.SameRegistry (s.handleDispatcherEstablishedEvent ref c) := by
  rw [established_eq]
  split_ifs
  · exact ⟨rfl, rfl, s.controllers_establishedStore c.id⟩
  · have hsend := sameRegistry_sendInstanceInfo
      { s with instancesStore := s.establishedStore c.id } ref false
    exact ⟨hsend.sequenceStore, hsend.controllers,
      hsend.registered.trans (s.controllers_establishedStore c.id)⟩

end SameInstances

/-! ## The side of the startup entries -/

/-- The startup entries are the same, and so is what is to be done about them. -/
structure SameStartup (s s' : HostState) : Prop where
  entries : s'.requiredStartupEntries = s.requiredStartupEntries
  byInstanceId : s'.requiredStartupEntriesByInstanceId = s.requiredStartupEntriesByInstanceId
  immediates : s'.immediates = s.immediates
  stopping : s'.stopping = s.stopping

section SameStartup

variable {s s' s'' : HostState}

theorem SameStartup.trans (h : s.SameStartup s') (h' : s'.SameStartup s'') : s.SameStartup s'' where
  entries := h'.entries.trans h.entries
  byInstanceId := h'.byInstanceId.trans h.byInstanceId
  immediates := h'.immediates.trans h.immediates
  stopping := h'.stopping.trans h.stopping

variable (s)

theorem sameStartup_startRunner (payload : StartPayload) (launch : Option (String × ℕ)) :
    s.SameStartup (s.startRunner payload launch) :=
  ⟨rfl, rfl, rfl, rfl⟩

theorem sameStartup_sendInstanceInfo (ref : ℕ) (gone : Bool) :
    s.SameStartup (s.sendInstanceInfo ref gone) := by
  unfold sendInstanceInfo
  split
  · exact ⟨rfl, rfl, rfl, rfl⟩
  · split_ifs <;> exact ⟨rfl, rfl, rfl, rfl⟩

theorem sameStartup_updateController (ref : ℕ) (f : CSIController → CSIController) :
    s.SameStartup (s.updateController ref f) :=
  ⟨rfl, rfl, rfl, rfl⟩

theorem sameStartup_pushInstance (c : CSIController) : s.SameStartup (s.pushInstance c) := by
  unfold pushInstance
  split <;> exact ⟨rfl, rfl, rfl, rfl⟩

theorem sameStartup_established (ref : ℕ) (c : CSIController) :
    s.SameStartup (s.handleDispatcherEstablishedEvent ref c) := by
  rw [established_eq]
  split_ifs
  · exact ⟨rfl, rfl, rfl, rfl⟩
  · have hsend := sameStartup_sendInstanceInfo
      { s with instancesStore := s.establishedStore c.id } ref false
    exact { hsend with }

theorem sameStartup_onPing (ref : ℕ) (accepted : Bool) : s.SameStartup (s.onPing ref accepted) := by
  unfold onPing
  split
  · exact ⟨rfl, rfl, rfl, rfl⟩
  · rename_i c hc
    split_ifs
    · have hping := ((s.sameStartup_pushInstance c).trans
        (sameStartup_updateController _ ref fun c => { c with connected := true })).trans
        (sameStartup_established _ ref c)
      exact { hping with }
    · exact ⟨rfl, rfl, rfl, rfl⟩

theorem sameStartup_cleanup (instanceId : String) :
    s.SameStartup (s.cleanupRequiredStartupInstance instanceId) := by
  unfold cleanupRequiredStartupInstance
  split_ifs
  · split <;> exact ⟨rfl, rfl, rfl, rfl⟩
  · exact ⟨rfl, rfl, rfl, rfl⟩

theorem sameStartup_handleDispatcherEndEvent (ref : ℕ) (c : CSIController) :
    s.SameStartup (s.handleDispatcherEndEvent ref c) := by
  unfold handleDispatcherEndEvent
  split_ifs
  · have hsend := (s.sameStartup_cleanup c.id).trans (sameStartup_sendInstanceInfo _ ref true)
    exact { hsend with }
  · exact ⟨rfl, rfl, rfl, rfl⟩

theorem sameStartup_removeInstance (ref : ℕ) (c : CSIController) :
    s.SameStartup (s.removeInstance ref c) := by
  unfold removeInstance
  split_ifs <;> exact ⟨rfl, rfl, rfl, rfl⟩

theorem sameStartup_onEnd (ref : ℕ) : s.SameStartup (s.onEnd ref) := by
  unfold onEnd
  split
  · exact ⟨rfl, rfl, rfl, rfl⟩
  · rename_i c hc
    split_ifs
    · exact ((s.sameStartup_updateController ref fun c => { c with ended := true }).trans
        (sameStartup_handleDispatcherEndEvent _ ref c)).trans (sameStartup_removeInstance _ ref c)
    · exact ⟨rfl, rfl, rfl, rfl⟩

end SameStartup

end HostState

end TransformHub.Host.Instances

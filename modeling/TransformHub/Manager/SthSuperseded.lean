import TransformHub.Manager.SthRollback
import TransformHub.Manager.TopicNotifications

/-!
# Events of a superseded controller

The handlers of a controller go by the id of its hub, so the events of a controller that has been
replaced reach what is recorded for the hub.
-/

namespace TransformHub.Manager.SthRegistration

open SthInfo OrderedMap

/-- The controller that a step is an event of. -/
def Action.sth (m : ManagerState) : Action → Option ℕ
  | .emit k _ | .loadTimeout k | .initResolved k | .initFailed k => some k
  | .removalDue i => (m.removals[i]?).map (·.sth)
  | _ => none

namespace ManagerState

variable {m m' : ManagerState} {h : HostId} {k : ℕ}

/-- A newer controller is installed for the hub. -/
def Superseded (m : ManagerState) (k : ℕ) : Prop :=
  ∃ c, m.sthConnectionStore.get? (m.controllers k).id = some c ∧ k < c

/-- The controller of the hub stays as it is, and so does what is recorded for the hub. -/
structure Unharmed (m m' : ManagerState) (h : HostId) : Prop where
  connection : m'.sthConnectionStore.get? h = m.sthConnectionStore.get? h
  live : ∀ c, m.sthConnectionStore.get? h = some c →
    (m'.controllers c).healthy = (m.controllers c).healthy ∧
      (m'.controllers c).disconnectReason = (m.controllers c).disconnectReason
  audits : m'.audits.count (h, false) = m.audits.count (h, false)
  view : m'.sthInfoRegister.view h = m.sthInfoRegister.view h
  records : (m'.sthInfoRegister.sequencesStore.get? h).getD [] =
    (m.sthInfoRegister.sequencesStore.get? h).getD []
  instances : ∀ i, m'.sthInfoRegister.instancesStore.get? (getInstanceStoreKey h i) =
    m.sthInfoRegister.instancesStore.get? (getInstanceStoreKey h i)
  actors : m'.hubActors h = m.hubActors h

/-- When what a controller of the hub emits has no effect. -/
def HarmlessEmission (m : ManagerState) (h : HostId) : Emission → Prop
  | .sequenceCreated q _ => (m.sthInfoRegister.instances? h q).isSome
  | .sequenceDeleted q => m.sthInfoRegister.instances? h q = none
  | .instanceGone q i => ∀ is, m.sthInfoRegister.instances? h q = some is → is.has i = false
  | .instance inst => ∀ is, m.sthInfoRegister.instances? h inst.sequence.id = some is →
      is.has inst.id = true
  | .topicAdd topicName role contentType =>
    m.serviceDiscovery.createTopic topicName contentType = none ∨
      ∃ i ∈ m.serviceDiscovery.actorsOf topicName, m.serviceDiscovery.hasRole role i = true ∧
        (m.serviceDiscovery.actors i).type = .host h
  | .topicRemove topicName =>
    ∀ i, m.hostActor topicName h = some i → m.serviceDiscovery.isRetired i = true
  | .sequences | .instances | .load => True

/-- When an event of a superseded controller has no effect on the hub: never when its `init` fails,
or when the connection is removed that it was when the removal began. -/
def Harmless (m : ManagerState) : Action → Prop
  | .emit k emission => m.HarmlessEmission (m.controllers k).id emission
  | .initFailed k => m.registrations.get? k = none
  | .removalDue _ => False
  | _ => True

theorem Unharmed.refl (m : ManagerState) (h : HostId) : m.Unharmed m h :=
  ⟨rfl, fun _ _ => ⟨rfl, rfl⟩, rfl, rfl, rfl, fun _ => rfl, rfl⟩

/-! ## What reaches the register -/

section Register

theorem unharmed_setRegister {r : STHInfoRegister}
    (hview : r.view h = m.sthInfoRegister.view h)
    (hrecords : (r.sequencesStore.get? h).getD [] =
      (m.sthInfoRegister.sequencesStore.get? h).getD [])
    (hinstances : r.instancesStore = m.sthInfoRegister.instancesStore) :
    m.Unharmed { m with sthInfoRegister := r } h :=
  ⟨rfl, fun _ _ => ⟨rfl, rfl⟩, rfl, hview, hrecords, fun _ => by rw [hinstances], rfl⟩

variable {r : STHInfoRegister} {q : SequenceId}

theorem addSequence_unchanged (hq : (r.instances? h q).isSome) (config : Option SequenceConfig) :
    r.addSequence h q config = r := by
  obtain ⟨is, his⟩ := Option.isSome_iff_exists.mp hq
  obtain ⟨seqs, hseqs, hget⟩ := STHInfoRegister.instances?_eq_some.mp his
  have hhas : seqs.has q = true := has_iff.mpr ⟨is, hget⟩
  simp [STHInfoRegister.addSequence, hseqs, hhas]

theorem deleteInstance_unchanged {i : InstanceId}
    (hq : ∀ is, r.instances? h q = some is → is.has i = false) : r.deleteInstance h q i = r := by
  unfold STHInfoRegister.deleteInstance
  split
  · rfl
  · rename_i seqs hseqs
    split
    · rfl
    · rename_i is his
      rw [hq is (STHInfoRegister.instances?_eq_some.mpr ⟨seqs, hseqs, his⟩)]
      rfl

theorem addInstance_unchanged {inst : Instance}
    (hq : ∀ is, r.instances? h inst.sequence.id = some is → is.has inst.id = true) :
    (r.addInstance h inst).toOption.getD r = r := by
  unfold STHInfoRegister.addInstance
  split
  · rfl
  · rename_i seqs hseqs
    split
    · rfl
    · rename_i is his
      rw [hq is (STHInfoRegister.instances?_eq_some.mpr ⟨seqs, hseqs, his⟩)]
      rfl

theorem records_deleteSequence (hr : r.Records) (hq : r.instances? h q = none) :
    ((r.deleteSequence h q).sequencesStore.get? h).getD [] = (r.sequencesStore.get? h).getD [] := by
  have hnone := STHInfoRegister.Records.record?_eq_none hr hq
  unfold STHInfoRegister.deleteSequence
  cases hget : r.sequencesStore.get? h with
  | none => simp [hget]
  | some infos =>
    have hfilter : infos.filter (fun sequence => sequence.id ≠ q) = infos := by
      rw [STHInfoRegister.record?, hget, Option.getD_some, List.find?_eq_none] at hnone
      rw [List.filter_eq_self]
      intro info hmem
      simpa using hnone info hmem
    dsimp only
    rw [hfilter]
    split_ifs with hempty
    · rw [get?_delete_self, hempty]
      rfl
    · rw [get?_set_self]

end Register

/-! ## What reaches the topics -/

section Topics

variable {s : ServiceDiscovery} {topicName : String}

theorem actors_onTopicUpdate (s : ServiceDiscovery) (topicName : String) :
    (s.onTopicUpdate topicName).actors = s.actors := by
  simp only [ServiceDiscovery.onTopicUpdate, ServiceDiscovery.runTopicUpdate]
  split_ifs <;> rfl

/-- The actors of a hub in the topics of the multiplexer. -/
def liveActors (s : ServiceDiscovery) (h : HostId) (t : String) : List ℕ :=
  (s.actorsOf t).filter fun i => (s.actors i).type = .host h && !s.isRetired i

theorem liveActors_register_iff (ho : s.Owned) (role : ActorRole) (contentType : String) :
    liveActors (s.register topicName role (.host h) contentType) h = liveActors s h ↔
      s.createTopic topicName contentType = none ∨
        ∃ i ∈ s.actorsOf topicName, s.hasRole role i = true ∧ (s.actors i).type = .host h := by
  cases hcreated : s.createTopic topicName contentType with
  | none =>
    have hsame : s.register topicName role (.host h) contentType = s := by
      simp only [ServiceDiscovery.register, hcreated]
    simp [hsame]
  | some created =>
    have hlist := ServiceDiscovery.actorsOf_register ho h role hcreated
    rcases s.register_cases topicName role (.host h) contentType with hsame | ⟨s', hreg, heq⟩
    · -- the register is not the same where a topic takes the actor, but lists tell as much
      rw [hsame]
      rw [hsame] at hlist
      simp only [reduceCtorEq, false_or, true_iff]
      by_contra hnot
      rw [if_neg hnot] at hlist
      simp at hlist
    · have hactors : (s.register topicName role (.host h) contentType).actors = s'.actors := by
        rw [heq, actors_onTopicUpdate]
      have hold : ∀ t, ((s.actorsOf t).filter fun i => (s'.actors i).type = .host h &&
          !s'.isRetired i) = liveActors s h t := fun t => by
        refine List.filter_congr fun i hi => ?_
        simp only [ServiceDiscovery.isRetired, hreg.old i (ho.listed t i hi).1]
      have hlive : ∀ t, liveActors (s.register topicName role (.host h) contentType) h t =
          ((s.register topicName role (.host h) contentType).actorsOf t).filter fun i =>
            (s'.actors i).type = .host h && !s'.isRetired i := fun t => by
        simp only [liveActors, ServiceDiscovery.isRetired, hactors]
      simp only [reduceCtorEq, false_or]
      constructor
      · intro hsame
        by_contra hnot
        rw [if_neg hnot] at hlist
        have ht := congrFun hsame topicName
        rw [hlive, hlist, List.filter_append, hold, List.append_right_eq_self,
          List.filter_singleton, hreg.type, hreg.live] at ht
        simp at ht
      · intro hhost
        rw [if_pos hhost] at hlist
        funext t
        rw [hlive, ← hold]
        refine congrArg _ ?_
        by_cases ht : t = topicName
        · rw [ht, hlist]
        · rw [heq, ServiceDiscovery.actorsOf_onTopicUpdate]
          exact (hreg.listed t).resolve_right fun hnew => ht hnew.1

theorem liveActors_unregister_iff (ho : s.Owned) {i : ℕ} (hi : i ∈ s.actorsOf topicName)
    (htype : (s.actors i).type = .host h) :
    liveActors (s.unregister i) h = liveActors s h ↔ s.isRetired i = true := by
  have hlt := (ho.listed topicName i hi).1
  have hlive : ∀ t, liveActors (s.unregister i) h t = (liveActors s h t).filter fun j => j ≠ i := by
    intro t
    rw [ServiceDiscovery.unregister, if_pos hlt, liveActors, ServiceDiscovery.actorsOf_onTopicUpdate,
      liveActors, List.filter_filter]
    refine List.filter_congr fun j _ => ?_
    simp only [ServiceDiscovery.isRetired, actors_onTopicUpdate, ServiceDiscovery.retire,
      ServiceDiscovery.update]
    split_ifs with hj <;> simp [hj]
  constructor
  · intro hsame
    by_contra hnot
    have hmem : i ∈ liveActors s h topicName := by
      rw [liveActors, List.mem_filter]
      exact ⟨hi, by simp [htype, Bool.eq_false_iff.mpr hnot]⟩
    rw [← hsame, hlive, List.mem_filter] at hmem
    simp at hmem
  · intro hretired
    funext t
    rw [hlive, List.filter_eq_self]
    intro j hj
    rw [liveActors, List.mem_filter] at hj
    rw [decide_eq_true_eq]
    rintro rfl
    simp [hretired] at hj

end Topics

/-! ## The events -/

section Events

theorem view_op (hk : m.Kept) (a : Op) (hu : m.Unharmed m' h)
    (ha : m'.sthInfoRegister = m.sthInfoRegister.apply a) :
    m.sthInfoRegister.view.apply a h = m.sthInfoRegister.view h := by
  rw [← STHInfoRegister.view_apply hk.records, ← ha, hu.view]

theorem instances?_isSome_iff {r : STHInfoRegister} {q : SequenceId} :
    (r.instances? h q).isSome ↔ ∃ seqs e, r.view h = some seqs ∧ seqs q = some e := by
  rw [Option.isSome_iff_exists]
  constructor
  · rintro ⟨is, his⟩
    obtain ⟨seqs, hseqs, hget⟩ := STHInfoRegister.instances?_eq_some.mp his
    exact ⟨_, _, Option.map_eq_some_iff.mpr ⟨seqs, hseqs, rfl⟩,
      Option.map_eq_some_iff.mpr ⟨is, hget, rfl⟩⟩
  · rintro ⟨f, e, hf, he⟩
    obtain ⟨seqs, hseqs, rfl⟩ := Option.map_eq_some_iff.mp hf
    obtain ⟨is, his, -⟩ := Option.map_eq_some_iff.mp he
    exact ⟨is, STHInfoRegister.instances?_eq_some.mpr ⟨seqs, hseqs, his⟩⟩

theorem unharmed_sequenceCreated_iff (hk : m.Kept) (hknown : (m.sthInfoRegister.view h).isSome)
    (q : SequenceId) (config : Option SequenceConfig) :
    m.Unharmed { m with sthInfoRegister := m.sthInfoRegister.addSequence h q config } h ↔
      (m.sthInfoRegister.instances? h q).isSome := by
  constructor
  · intro hu
    have hview := view_op hk (.addSequence h q config) hu rfl
    obtain ⟨seqs, hseqs⟩ := Option.isSome_iff_exists.mp hknown
    rw [Inventory.apply, Inventory.update, if_pos rfl, hseqs, Option.map_some,
      Option.some.injEq] at hview
    have hsequence := congrFun hview q
    rw [if_pos rfl] at hsequence
    exact instances?_isSome_iff.mpr ⟨seqs, _, hseqs, hsequence.symm⟩
  · intro hq
    rw [addSequence_unchanged hq]
    exact .refl m h

theorem unharmed_sequenceDeleted_iff (hk : m.Kept) (q : SequenceId) :
    m.Unharmed { m with sthInfoRegister := m.sthInfoRegister.deleteSequence h q } h ↔
      m.sthInfoRegister.instances? h q = none := by
  constructor
  · intro hu
    have hview := view_op hk (.deleteSequence h q) hu rfl
    by_contra hq
    obtain ⟨seqs, e, hseqs, he⟩ := instances?_isSome_iff.mp (Option.isSome_iff_ne_none.mpr hq)
    rw [Inventory.apply, Inventory.update, if_pos rfl, hseqs, Option.map_some,
      Option.some.injEq] at hview
    have hseq := congrFun hview q
    rw [if_pos rfl, he] at hseq
    cases hseq
  · intro hq
    refine unharmed_setRegister ?_ (records_deleteSequence hk.records hq) rfl
    rw [STHInfoRegister.view_deleteSequence]
    cases hview : m.sthInfoRegister.view h with
    | none => rfl
    | some seqs =>
      rw [Option.map_some, Option.some.injEq]
      funext s'
      split_ifs with hs
      · subst hs
        by_contra hne
        obtain ⟨e, he⟩ := Option.ne_none_iff_exists'.mp (Ne.symm hne)
        have hsome := instances?_isSome_iff.mpr ⟨seqs, e, hview, he⟩
        rw [hq] at hsome
        cases hsome
      · rfl

theorem unharmed_instanceGone_iff (hk : m.Kept) (q : SequenceId) (i : InstanceId) :
    m.Unharmed { m with sthInfoRegister := m.sthInfoRegister.deleteInstance h q i } h ↔
      ∀ is, m.sthInfoRegister.instances? h q = some is → is.has i = false := by
  constructor
  · intro hu is his
    have hview := view_op hk (.deleteInstance h q i) hu rfl
    by_contra hhas
    obtain ⟨seqs, hseqs, hget⟩ := STHInfoRegister.instances?_eq_some.mp his
    have hlists : m.sthInfoRegister.view.Lists h q i :=
      STHInfoRegister.lists_iff.mpr ⟨seqs, is, hseqs, hget, by simpa using hhas⟩
    have hlists' : (m.sthInfoRegister.view.apply (.deleteInstance h q i)).Lists h q i := by
      rwa [Inventory.Lists, hview]
    exact (Inventory.lists_deleteInstance.mp hlists').2 ⟨rfl, rfl, rfl⟩
  · intro hq
    rw [deleteInstance_unchanged hq]
    exact .refl m h

theorem unharmed_instance_iff (hk : m.Kept) (inst : Instance) :
    m.Unharmed { m with sthInfoRegister := m.sthInfoRegister.apply (.addInstance h inst) } h ↔
      ∀ is, m.sthInfoRegister.instances? h inst.sequence.id = some is → is.has inst.id = true := by
  constructor
  · intro hu is his
    have hview := view_op hk (.addInstance h inst) hu rfl
    have hlists : (m.sthInfoRegister.view.apply (.addInstance h inst)).Lists h inst.sequence.id
        inst.id := by
      obtain ⟨seqs, e, hseqs, he⟩ :=
        instances?_isSome_iff.mp (Option.isSome_iff_exists.mpr ⟨is, his⟩)
      exact Inventory.lists_addInstance.mpr (.inr ⟨rfl, rfl, rfl, seqs, e, hseqs, he⟩)
    rw [Inventory.Lists, hview, ← Inventory.Lists, STHInfoRegister.lists_iff] at hlists
    obtain ⟨seqs, is', hseqs, his', hhas⟩ := hlists
    rw [STHInfoRegister.instances?_eq_some.mpr ⟨seqs, hseqs, his'⟩] at his
    cases his
    exact hhas
  · intro hq
    rw [STHInfoRegister.apply, addInstance_unchanged hq]
    exact .refl m h

theorem unharmed_setTopics_iff (s : ServiceDiscovery) :
    m.Unharmed { m with serviceDiscovery := s } h ↔
      liveActors s h = liveActors m.serviceDiscovery h :=
  ⟨fun hu => hu.actors, fun hs =>
    ⟨rfl, fun _ _ => ⟨rfl, rfl⟩, rfl, rfl, rfl, fun _ => rfl, hs⟩⟩

theorem unharmed_updateController (hc : ∀ c, m.sthConnectionStore.get? h = some c → c ≠ k)
    (f : STHController → STHController) : m.Unharmed (m.updateController k f) h where
  connection := rfl
  live := fun c hget => by
    simp only [updateController, if_neg (hc c hget), and_self]
  audits := rfl
  view := rfl
  records := rfl
  instances := fun _ => rfl
  actors := rfl

theorem unharmed_handleEmission_iff (hk : m.Kept) {c : ℕ}
    (hget : m.sthConnectionStore.get? (m.controllers k).id = some c) (hlt : k < c)
    (emission : Emission) : m.Unharmed (m.handleEmission k emission) (m.controllers k).id ↔
      m.HarmlessEmission (m.controllers k).id emission := by
  cases emission with
  | sequenceCreated q config =>
    exact unharmed_sequenceCreated_iff hk (hk.connected _ c hget).2.2 q config
  | sequenceDeleted q => exact unharmed_sequenceDeleted_iff hk q
  | instanceGone q i => exact unharmed_instanceGone_iff hk q i
  | «instance» inst =>
    rw [HarmlessEmission, ← unharmed_instance_iff hk, handleEmission, STHInfoRegister.apply]
    cases m.sthInfoRegister.addInstance (m.controllers k).id inst <;> rfl
  | sequences | instances =>
    exact iff_of_true ⟨rfl, fun _ _ => ⟨rfl, rfl⟩, rfl, rfl, rfl, fun _ => rfl, rfl⟩ trivial
  | topicAdd topicName role contentType =>
    exact (unharmed_setTopics_iff _).trans (liveActors_register_iff hk.topics role contentType)
  | topicRemove topicName =>
    rw [HarmlessEmission, handleEmission]
    cases hactor : m.hostActor topicName (m.controllers k).id with
    | none => exact iff_of_true (.refl m _) (by simp)
    | some i =>
      have hmem := List.mem_of_find?_eq_some hactor
      have htype := List.find?_some hactor
      simp only [Option.some.injEq, forall_eq']
      exact (unharmed_setTopics_iff _).trans
        (liveActors_unregister_iff hk.topics hmem (of_decide_eq_true htype))
  | load =>
    refine iff_of_true (unharmed_updateController (fun c' hget' => ?_)
      fun sth => { sth with healthy := true }) trivial
    rw [hget] at hget'
    cases hget'
    exact hlt.ne'

theorem unharmed_initResolved (m : ManagerState) (k : ℕ) (h : HostId) :
    m.Unharmed (m.initResolved k) h := by
  have hsettled : ∀ id, (m.audits ++ [(id, true)]).count (h, false) = m.audits.count (h, false) := by
    intro id
    rw [List.count_append, List.count_singleton]
    simp
  unfold initResolved
  split
  · exact .refl m h
  · split
    · exact ⟨rfl, fun _ _ => ⟨rfl, rfl⟩, hsettled _, rfl, rfl, fun _ => rfl, rfl⟩
    · refine ⟨rfl, fun c _ => ?_, hsettled _, rfl, rfl, fun _ => rfl, rfl⟩
      -- that a controller is disposed of says nothing of its health
      simp only [updateController]
      split_ifs with hc <;> simp [hc]

theorem unharmed_initFailed_iff (hk : m.Kept) {c : ℕ}
    (hget : m.sthConnectionStore.get? (m.controllers k).id = some c) (hlt : k < c) :
    m.Unharmed (m.initFailed k) (m.controllers k).id ↔ m.registrations.get? k = none := by
  cases hreg : m.registrations.get? k with
  | none =>
    simp only [initFailed, hreg, iff_true]
    exact .refl m _
  | some reg =>
    refine iff_of_false (fun hu => ?_) (by simp)
    have hconnection := hu.connection
    rw [hget] at hconnection
    cases reg with
    | none =>
      rw [initFailed_none hreg, connection_withdrawn, get?_delete_self] at hconnection
      cases hconnection
    | some replaced =>
      obtain ⟨hprevious, hid, -⟩ := (hk.pending k _ hreg).2 replaced.1 replaced.2 rfl
      rw [initFailed_some hreg hid, connection_restored, get?_set_self,
        Option.some.injEq] at hconnection
      omega

theorem unharmed_next_iff (hk : m.Kept) {a : Action} (ha : a.sth m = some k)
    (hs : m.Superseded k) : m.Unharmed (m.next a) (m.controllers k).id ↔ m.Harmless a := by
  obtain ⟨c, hget, hlt⟩ := hs
  have hother : ∀ c', m.sthConnectionStore.get? (m.controllers k).id = some c' → c' ≠ k := by
    intro c' hget'
    rw [hget] at hget'
    cases hget'
    omega
  cases a with
  | register _ _ _ | disconnect _ _ | delete _ _ _ | routeLost _ | topics _ => cases ha
  | emit k' emission =>
    cases ha
    have hcount := (hk.connected _ c hget).1
    rw [next, if_pos (hlt.trans hcount)]
    exact unharmed_handleEmission_iff hk hget hlt emission
  | loadTimeout k' =>
    cases ha
    exact iff_of_true (unharmed_updateController hother fun sth => { sth with healthy := false })
      trivial
  | initResolved k' => exact iff_of_true (unharmed_initResolved m k' _) trivial
  | initFailed k' =>
    cases ha
    exact unharmed_initFailed_iff hk hget hlt
  | removalDue i =>
    obtain ⟨removal, hremoval, rfl⟩ := Option.map_eq_some_iff.mp ha
    refine iff_of_false (fun hu => ?_) id
    have hid := (hk.removing removal (List.mem_of_getElem? hremoval)).2
    have hconnection := hu.connection
    simp only [next, removalDue, hremoval, hid, get?_delete_self] at hconnection
    rw [hid] at hget
    rw [hget] at hconnection
    cases hconnection

end Events

/-! ## Runs -/

/-- No event of a superseded controller changes anything of the hub. -/
def Undisturbed : ManagerState → List Action → Prop
  | _, [] => True
  | m, a :: as =>
    (∀ k, a.sth m = some k → m.Superseded k → m.Unharmed (m.next a) (m.controllers k).id) ∧
      Undisturbed (m.next a) as

/-- All events of superseded controllers are harmless. -/
def HarmlessRun : ManagerState → List Action → Prop
  | _, [] => True
  | m, a :: as =>
    (∀ k, a.sth m = some k → m.Superseded k → m.Harmless a) ∧ HarmlessRun (m.next a) as

theorem Kept.undisturbed_iff (hk : m.Kept) (as : List Action) :
    m.Undisturbed as ↔ m.HarmlessRun as := by
  induction as generalizing m with
  | nil => exact Iff.rfl
  | cons a as ih =>
    refine and_congr ?_ (ih (hk.next a))
    exact forall_congr' fun k => forall_congr' fun ha => forall_congr' fun hs =>
      unharmed_next_iff hk ha hs

/-- Whatever the hubs do, a run leaves the newer controllers alone exactly when all events of the
superseded ones are harmless. -/
theorem undisturbed_iff_harmlessRun (as : List Action) :
    start.Undisturbed as ↔ start.HarmlessRun as :=
  kept_start.undisturbed_iff as

/-- A hub registers again, and a sequence that its first controller reports comes too late. -/
def lateSequence : List Action :=
  [.register "a" "a.sth" false, .initResolved 0, .register "a" "a.sth" false, .initResolved 1,
    .emit 0 (.sequenceCreated "s" none)]

theorem lateSequence_disturbs : ¬ ∀ as, start.Undisturbed as := by
  intro hall
  obtain ⟨-, -, -, -, hlate, -⟩ := hall lateSequence
  have hview := (hlate 0 rfl ⟨1, by decide +kernel, by omega⟩).view
  have hsequence := congrArg (fun v => (v.map fun sequences => (sequences "s").isSome)) hview
  revert hsequence
  decide +kernel

end ManagerState

end TransformHub.Manager.SthRegistration

import TransformHub.Manager.SthInfoConsistency
import TransformHub.Manager.SthRegistration
import TransformHub.Manager.TopicWorker

/-!
# Runs of the registration

What every run keeps (`Kept`): connections are of known hubs, and a registration that awaits `init`
has a snapshot of the hub that it registers.
-/

namespace TransformHub.Manager.SthRegistration

open SthInfo OrderedMap

/-! ## Snapshots -/

section Snapshots

variable {sequences : List SequenceInfo}

theorem has_ofEntries_instances {is : List InstanceId} (h : is.Nodup) (i : InstanceId) :
    (ofEntries (is.map fun i => (i, ())) : InstancesSet).has i = true ↔ i ∈ is := by
  have hkeys : ((is.map fun i => (i, ())).map Prod.fst).Nodup := by
    rw [List.map_map]
    exact h.map fun _ _ => id
  rw [has, ← mem_keys_iff, keys, entries_ofEntries hkeys,
    List.map_map]
  simp

theorem find?_of_mem (h : (sequences.map (·.id)).Nodup) {info : SequenceInfo}
    (hmem : info ∈ sequences) : (sequences.find? fun info' => info'.id = info.id) = some info := by
  induction sequences with
  | nil => cases hmem
  | cons head rest ih =>
    rw [List.map_cons, List.nodup_cons] at h
    rcases List.mem_cons.mp hmem with rfl | hrest
    · simp
    · have hne : head.id ≠ info.id := fun heq => h.1 (heq ▸ List.mem_map_of_mem hrest)
      simp [hne, ih h.2 hrest]

theorem get?_snapshotSequences (h : (sequences.map (·.id)).Nodup) (s : SequenceId) :
    (ManagerState.snapshotSequences sequences).get? s =
      (sequences.find? fun info => info.id = s).map fun info =>
        .ofEntries (info.instances.map fun i => (i, ())) :=
  get?_ofEntries_map _ h s

/-- The records of a snapshot are those of the register. -/
structure HubStateSnapshot.Valid (snapshot : HubStateSnapshot) (h : HostId) : Prop where
  nodup : (snapshot.sequences.map (·.id)).Nodup
  located : ∀ info ∈ snapshot.sequences, info.location = h ∧ info.instances.Nodup
  keys : (snapshot.instances.map Prod.fst).Nodup

theorem key_prefix_iff {h : HostId} {key : String} :
    (h ++ ":").toList <+: key.toList ↔ ∃ i, getInstanceStoreKey h i = key := by
  constructor
  · rintro ⟨cs, hcs⟩
    refine ⟨String.ofList cs, String.toList_inj.mp ?_⟩
    rw [getInstanceStoreKey, String.toList_append, String.toList_ofList, hcs]
  · rintro ⟨i, rfl⟩
    exact ⟨i.toList, String.toList_append.symm⟩

variable {m : ManagerState}

theorem get?_captured (m : ManagerState) (h : HostId) (key : String) :
    (ofEntries (m.captureHubSnapshot h).instances).get? key =
      if (h ++ ":").toList <+: key.toList then m.sthInfoRegister.instancesStore.get? key
      else none := by
  have hnodup : ((m.captureHubSnapshot h).instances.map Prod.fst).Nodup :=
    (List.filter_sublist.map Prod.fst).nodup m.sthInfoRegister.instancesStore.nodup
  ext inst
  rw [← mem_entries_iff, entries_ofEntries hnodup,
    ManagerState.captureHubSnapshot, List.mem_filter, mem_entries_iff]
  split_ifs with hp
  · simp only [decide_eq_true_eq, hp, and_true]
  · simp only [decide_eq_true_eq, hp, and_false]

theorem valid_captureHubSnapshot (hr : m.sthInfoRegister.Records) (h : HostId) :
    (m.captureHubSnapshot h).Valid h where
  nodup := by
    rw [ManagerState.captureHubSnapshot]
    cases hget : m.sthInfoRegister.sequencesStore.get? h with
    | none => exact List.nodup_nil
    | some infos => exact hr.nodup h infos hget
  located := by
    intro info hmem
    rw [ManagerState.captureHubSnapshot] at hmem
    cases hget : m.sthInfoRegister.sequencesStore.get? h with
    | none =>
      rw [hget] at hmem
      cases hmem
    | some infos =>
      rw [hget] at hmem
      exact ⟨(hr.listed h infos info hget hmem).1, (hr.listed h infos info hget hmem).2.1⟩
  keys := (List.filter_sublist.map Prod.fst).nodup m.sthInfoRegister.instancesStore.nodup

end Snapshots

/-! ## What a run keeps -/

namespace ManagerState

variable {m m' m'' : ManagerState}

/-- What a step leaves that neither registers a controller nor takes a registration back. -/
structure Keeps (m m' : ManagerState) : Prop where
  controllerCount : m'.controllerCount = m.controllerCount
  ids : ∀ k, (m'.controllers k).id = (m.controllers k).id
  connected : ∀ id k, m'.sthConnectionStore.get? id = some k → m.sthConnectionStore.get? id = some k
  pending : ∀ k reg, m'.registrations.get? k = some reg → m.registrations.get? k = some reg
  records : m.sthInfoRegister.Records → m'.sthInfoRegister.Records ∧
    ∀ h, (m.sthInfoRegister.view h).isSome → (m'.sthInfoRegister.view h).isSome
  removing : ∀ removal ∈ m'.removals, removal ∈ m.removals ∨
    m.sthConnectionStore.get? removal.id = some removal.sth
  topics : m.serviceDiscovery.Owned → m'.serviceDiscovery.Owned

theorem Keeps.trans (h : m.Keeps m') (h' : m'.Keeps m'') : m.Keeps m'' where
  controllerCount := h'.controllerCount.trans h.controllerCount
  ids := fun k => (h'.ids k).trans (h.ids k)
  connected := fun id k hget => h.connected id k (h'.connected id k hget)
  pending := fun k reg hget => h.pending k reg (h'.pending k reg hget)
  records := fun hr =>
    ⟨(h'.records (h.records hr).1).1, fun i hi => (h'.records (h.records hr).1).2 i
      ((h.records hr).2 i hi)⟩
  removing := fun removal hmem => (h'.removing removal hmem).elim (h.removing removal) fun hget =>
    .inr (h.connected _ _ hget)
  topics := fun ho => h'.topics (h.topics ho)

theorem Keeps.of_eq (hcount : m'.controllerCount = m.controllerCount)
    (hids : ∀ k, (m'.controllers k).id = (m.controllers k).id)
    (hstore : m'.sthConnectionStore = m.sthConnectionStore)
    (hpending : m'.registrations = m.registrations)
    (hregister : m'.sthInfoRegister = m.sthInfoRegister) (hremovals : m'.removals = m.removals)
    (htopics : m.serviceDiscovery.Owned → m'.serviceDiscovery.Owned) : m.Keeps m' where
  controllerCount := hcount
  ids := hids
  connected := fun id k hget => hstore ▸ hget
  pending := fun k reg hget => hpending ▸ hget
  records := fun hr => by
    rw [hregister]
    exact ⟨hr, fun _ hh => hh⟩
  removing := fun removal hmem => .inl (hremovals ▸ hmem)
  topics := htopics

theorem Keeps.refl (m : ManagerState) : m.Keeps m :=
  .of_eq rfl (fun _ => rfl) rfl rfl rfl rfl fun ho => ho

theorem isSome_view_apply {r : STHInfoRegister} (hr : r.Records) (a : Op)
    (hnot : ∀ h, a ≠ .removeHub h) {h : HostId} (hh : (r.view h).isSome) :
    ((r.apply a).view h).isSome := by
  rw [STHInfoRegister.view_apply hr]
  cases a with
  | removeHub h' => exact absurd rfl (hnot h')
  | addHub h' =>
    simp only [Inventory.apply]
    split_ifs
    · rfl
    · exact hh
  | _ =>
    simp only [Inventory.apply, Inventory.update]
    split_ifs
    · rwa [Option.isSome_map]
    · exact hh

section

variable (m)
include m

theorem Keeps.setRegister (a : Op) (hnot : ∀ h, a ≠ .removeHub h) :
    m.Keeps { m with sthInfoRegister := m.sthInfoRegister.apply a } where
  controllerCount := rfl
  ids := fun _ => rfl
  connected := fun _ _ hget => hget
  pending := fun _ _ hget => hget
  records := fun hr => ⟨hr.apply a, fun _ => isSome_view_apply hr a hnot⟩
  removing := fun _ hmem => .inl hmem
  topics := fun ho => ho

theorem keeps_updateController (k : ℕ) {f : STHController → STHController}
    (hf : ∀ sth, (f sth).id = sth.id) : m.Keeps (m.updateController k f) := by
  refine .of_eq rfl (fun j => ?_) rfl rfl rfl rfl fun ho => ho
  simp only [updateController]
  split_ifs with hj
  · rw [hf, hj]
  · rfl

theorem keeps_cleanupHubState (id : HostId) : m.Keeps (m.cleanupHubState id) :=
  (Keeps.setRegister m (.clearHostEntities id) (by simp)).trans
    (.of_eq rfl (fun _ => rfl) rfl rfl rfl rfl fun ho => ServiceDiscovery.withdraws_onUpdate.owned ho)

theorem keeps_disconnect (k : ℕ) (reason : DisconnectReason) : m.Keeps (m.disconnect k reason) := by
  unfold disconnect
  split
  · exact .refl m
  · have hmark := keeps_updateController m k
      (f := fun sth => { sth with disconnectReason := some reason }) fun _ => rfl
    exact hmark.trans (keeps_cleanupHubState _ _)

theorem keeps_handleEmission (k : ℕ) (emission : Emission) :
    m.Keeps (m.handleEmission k emission) := by
  cases emission with
  | sequenceCreated seqId config => exact .setRegister m (.addSequence _ seqId config) (by simp)
  | sequenceDeleted seqId => exact .setRegister m (.deleteSequence _ seqId) (by simp)
  | instanceGone seqId id => exact .setRegister m (.deleteInstance _ seqId id) (by simp)
  | «instance» inst =>
    have hop := Keeps.setRegister m (.addInstance (m.controllers k).id inst) (by simp)
    simp only [STHInfoRegister.apply] at hop
    simp only [handleEmission]
    cases hadd : m.sthInfoRegister.addInstance (m.controllers k).id inst with
    | error _ => exact .refl m
    | ok register => simpa only [hadd, Except.toOption, Option.getD_some] using hop
  | sequences | instances => exact .of_eq rfl (fun _ => rfl) rfl rfl rfl rfl fun ho => ho
  | topicAdd topicName role contentType =>
    exact .of_eq rfl (fun _ => rfl) rfl rfl rfl rfl fun ho =>
      ho.next (.register topicName role (.host (m.controllers k).id) contentType)
  | topicRemove topicName =>
    simp only [handleEmission]
    split
    · exact .refl m
    · exact .of_eq rfl (fun _ => rfl) rfl rfl rfl rfl fun ho => ho.next (.unregister _)
  | load => exact keeps_updateController m k (f := fun sth => { sth with healthy := true }) fun _ => rfl

theorem keeps_routeLost (domain : String) : m.Keeps (m.routeLost domain) := by
  have hfold : ∀ (ks : List ℕ) (m' : ManagerState), m'.Keeps (ks.foldl (fun m k =>
      if (m.controllers k).routeDomain = domain then
        (m.updateController k fun sth => { sth with healthy := false }).cleanupHubState
          (m.controllers k).id
      else m) m') := by
    intro ks
    induction ks with
    | nil => exact .refl
    | cons k ks ih =>
      intro m'
      rw [List.foldl_cons]
      split_ifs
      · have hmark := keeps_updateController m' k
          (f := fun sth => { sth with healthy := false }) fun _ => rfl
        exact (hmark.trans (keeps_cleanupHubState _ _)).trans (ih _)
      · exact ih m'
  exact hfold _ m

end

theorem Keeps.forget (id : HostId) (removals : List Removal)
    (hremovals : ∀ removal ∈ removals, removal ∈ m.removals) :
    m.Keeps { m with sthConnectionStore := m.sthConnectionStore.delete id, removals } where
  controllerCount := rfl
  ids := fun _ => rfl
  connected := fun id' k hget => by
    rw [get?_delete] at hget
    split_ifs at hget
    exact hget
  pending := fun _ _ hget => hget
  records := fun hr => ⟨hr, fun _ hh => hh⟩
  removing := fun removal hmem => .inl (hremovals removal hmem)
  topics := fun ho => ho

theorem connection_disconnect (m : ManagerState) (k : ℕ) (reason : DisconnectReason) :
    (m.disconnect k reason).sthConnectionStore = m.sthConnectionStore := by
  unfold disconnect
  split <;> rfl

theorem Keeps.remove {id : HostId} {k : ℕ} (hget : m.sthConnectionStore.get? id = some k) :
    m.Keeps { m with removals := m.removals ++ [⟨id, k⟩] } where
  controllerCount := rfl
  ids := fun _ => rfl
  connected := fun _ _ hget => hget
  pending := fun _ _ hget => hget
  records := fun hr => ⟨hr, fun _ hh => hh⟩
  removing := fun removal hmem => (List.mem_append.mp hmem).imp_right fun hmem => by
    rw [List.mem_singleton.mp hmem]
    exact hget
  topics := fun ho => ho

theorem keeps_deleteConnection (m : ManagerState) (id : HostId) (isConnectionActive force : Bool) :
    m.Keeps (m.deleteConnection id isConnectionActive force) := by
  unfold deleteConnection
  split
  · exact .refl m
  · rename_i k hget
    split_ifs
    · exact .refl m
    · refine (keeps_disconnect m k .id_drop).trans (Keeps.remove ?_)
      rwa [connection_disconnect]
    · exact .refl m
    · exact .forget id m.removals fun _ hmem => hmem

theorem keeps_removalDue (m : ManagerState) (i : ℕ) : m.Keeps (m.removalDue i) := by
  unfold removalDue
  split
  · exact .refl m
  · exact .forget _ _ fun _ hmem => List.mem_of_mem_eraseIdx hmem

theorem keeps_initResolved (m : ManagerState) (k : ℕ) : m.Keeps (m.initResolved k) := by
  unfold initResolved
  split
  · exact .refl m
  · rename_i registration _
    have hsettled : m.Keeps
        { m with
          registrations := m.registrations.delete k
          audits := m.audits ++ [((m.controllers k).id, true)] } :=
      { controllerCount := rfl
        ids := fun _ => rfl
        connected := fun _ _ hget => hget
        pending := fun j reg hget => by
          rw [get?_delete] at hget
          split_ifs at hget
          exact hget
        records := fun hr => ⟨hr, fun _ hh => hh⟩
        removing := fun _ hmem => .inl hmem
        topics := fun ho => ho }
    cases registration with
    | none => exact hsettled
    | some replaced =>
      exact hsettled.trans (keeps_updateController _ replaced.1
        (f := fun sth => { sth with disposed := true }) fun _ => rfl)

theorem keeps_next (m : ManagerState) (a : Action)
    (hregister : ∀ id domain self, a ≠ .register id domain self)
    (hfailed : ∀ k, a ≠ .initFailed k) : m.Keeps (m.next a) := by
  cases a with
  | register id domain self => exact absurd rfl (hregister id domain self)
  | initFailed k => exact absurd rfl (hfailed k)
  | initResolved k => exact keeps_initResolved m k
  | emit k emission =>
    simp only [next]
    split_ifs
    · exact keeps_handleEmission m k emission
    · exact .refl m
  | loadTimeout k =>
    exact keeps_updateController m k (f := fun sth => { sth with healthy := false }) fun _ => rfl
  | disconnect id reason =>
    simp only [next]
    split
    · exact .refl m
    · exact keeps_disconnect m _ reason
  | delete id isConnectionActive force => exact keeps_deleteConnection m id isConnectionActive force
  | removalDue i => exact keeps_removalDue m i
  | routeLost domain => exact keeps_routeLost m domain
  | topics action => exact .of_eq rfl (fun _ => rfl) rfl rfl rfl rfl fun ho => ho.next action

/-! ### Registrations that await `init` -/

/-- Connections are of known hubs, a registration that awaits `init` replaces an older controller
and has a snapshot of the hub that it registers, and what is being removed goes by the id of its
controller. -/
structure Kept (m : ManagerState) : Prop where
  records : m.sthInfoRegister.Records
  connected : ∀ id k, m.sthConnectionStore.get? id = some k →
    k < m.controllerCount ∧ (m.controllers k).id = id ∧ (m.sthInfoRegister.view id).isSome
  pending : ∀ k reg, m.registrations.get? k = some reg → k < m.controllerCount ∧
    ∀ previous snapshot, reg = some (previous, snapshot) → previous < k ∧
      (m.controllers previous).id = (m.controllers k).id ∧ snapshot.Valid (m.controllers k).id
  removing : ∀ removal ∈ m.removals, removal.sth < m.controllerCount ∧
    (m.controllers removal.sth).id = removal.id
  topics : m.serviceDiscovery.Owned

theorem Kept.keeps (h : m.Kept) (hk : m.Keeps m') : m'.Kept where
  records := (hk.records h.records).1
  connected := fun id k hget => by
    obtain ⟨hlt, hid, hknown⟩ := h.connected id k (hk.connected id k hget)
    exact ⟨hk.controllerCount ▸ hlt, (hk.ids k).trans hid, (hk.records h.records).2 id hknown⟩
  pending := fun k reg hget => by
    obtain ⟨hlt, hreg⟩ := h.pending k reg (hk.pending k reg hget)
    refine ⟨hk.controllerCount ▸ hlt, fun previous snapshot heq => ?_⟩
    obtain ⟨hprevious, hid, hvalid⟩ := hreg previous snapshot heq
    rw [hk.ids k, hk.ids previous]
    exact ⟨hprevious, hid, hvalid⟩
  removing := fun removal hmem => by
    rw [hk.controllerCount, hk.ids]
    rcases hk.removing removal hmem with hmem | hget
    · exact h.removing removal hmem
    · exact ⟨(h.connected _ _ hget).1, (h.connected _ _ hget).2.1⟩
  topics := hk.topics h.topics

/-- What a registration does, whether or not the hub is known. -/
structure Registers (m m' : ManagerState) (id : HostId) (reg : Registration) : Prop where
  controllerCount : m'.controllerCount = m.controllerCount + 1
  id_new : (m'.controllers m.controllerCount).id = id
  controllers : ∀ k < m.controllerCount, m'.controllers k = m.controllers k
  connection : m'.sthConnectionStore = m.sthConnectionStore.set id m.controllerCount
  registrations : m'.registrations = m.registrations.set m.controllerCount reg
  known : (m'.sthInfoRegister.view id).isSome
  records : m.sthInfoRegister.Records → m'.sthInfoRegister.Records ∧
    ∀ h, (m.sthInfoRegister.view h).isSome → (m'.sthInfoRegister.view h).isSome
  removals : m'.removals = m.removals
  topics : m'.serviceDiscovery = m.serviceDiscovery

def replaces (m : ManagerState) (id : HostId) : Registration :=
  (m.sthConnectionStore.get? id).map fun previous => (previous, m.captureHubSnapshot id)

theorem registers_handleSthRegistration (m : ManagerState) (id : HostId) (domain : String)
    (self : Bool) : m.Registers (m.handleSthRegistration id domain self) id (m.replaces id) := by
  have hknown : ∀ r : STHInfoRegister, ((r.addHub id).view id).isSome := fun r => by
    rw [STHInfoRegister.view_addHub]
    rfl
  unfold handleSthRegistration replaces
  cases m.sthConnectionStore.get? id with
  | none =>
    refine ⟨rfl, by simp [updateController], fun k hk => if_neg hk.ne, rfl, rfl, hknown _, ?_, rfl,
      rfl⟩
    exact fun hr => ⟨hr.addHub id, fun _ => isSome_view_apply hr (.addHub id) (by simp)⟩
  | some previous =>
    refine ⟨rfl, by simp [updateController], fun k hk => if_neg hk.ne, rfl, rfl, hknown _, ?_, rfl,
      rfl⟩
    refine fun hr => ⟨(hr.clearHostEntities id).addHub id, fun h hh => ?_⟩
    have hcleared := isSome_view_apply hr (.clearHostEntities id) (by simp) hh
    exact isSome_view_apply (hr.clearHostEntities id) (.addHub id) (by simp) hcleared

theorem Kept.handleSthRegistration (h : m.Kept) (id : HostId) (domain : String) (self : Bool) :
    (m.handleSthRegistration id domain self).Kept := by
  have hreg := m.registers_handleSthRegistration id domain self
  have hcount : ∀ {k}, k < m.controllerCount →
      k < (m.handleSthRegistration id domain self).controllerCount := fun {k} hlt => by
    rw [hreg.controllerCount]
    omega
  refine ⟨(hreg.records h.records).1, fun id' k hget => ?_, fun k reg hget => ?_,
    fun removal hmem => ?_, hreg.topics ▸ h.topics⟩
  · rw [hreg.connection, get?_set] at hget
    split_ifs at hget with heq
    · cases hget
      subst heq
      exact ⟨by rw [hreg.controllerCount]; omega, hreg.id_new, hreg.known⟩
    · obtain ⟨hlt, hid, hknown⟩ := h.connected id' k hget
      rw [hreg.controllers k hlt]
      exact ⟨hcount hlt, hid, (hreg.records h.records).2 id' hknown⟩
  · rw [hreg.registrations, get?_set] at hget
    split_ifs at hget with heq
    · subst heq
      refine ⟨by rw [hreg.controllerCount]; omega, fun previous snapshot hsome => ?_⟩
      obtain ⟨previous', hprevious, hpair⟩ :=
        Option.map_eq_some_iff.mp ((Option.some.inj hget).trans hsome)
      cases hpair
      obtain ⟨hlt, hid, -⟩ := h.connected id previous hprevious
      rw [hreg.controllers previous hlt, hreg.id_new]
      exact ⟨hlt, hid, valid_captureHubSnapshot h.records id⟩
    · obtain ⟨hlt, hpending⟩ := h.pending k reg hget
      refine ⟨hcount hlt, fun previous snapshot hsome => ?_⟩
      obtain ⟨hprevious, hids, hvalid⟩ := hpending previous snapshot hsome
      rw [hreg.controllers k hlt, hreg.controllers previous (hprevious.trans hlt)]
      exact ⟨hprevious, hids, hvalid⟩
  · rw [hreg.removals] at hmem
    obtain ⟨hlt, hid⟩ := h.removing removal hmem
    rw [hreg.controllers _ hlt]
    exact ⟨hcount hlt, hid⟩

/-! ### A rollback -/

section Restore

variable {h : HostId} {snapshot : HubStateSnapshot}

theorem getD_eq_nil {r : STHInfoRegister} (hr : r.Records) (hnone : r.hostsMap.get? h = none) :
    (r.sequencesStore.get? h).getD [] = [] := by
  cases hget : r.sequencesStore.get? h with
  | none => rfl
  | some infos =>
    cases infos with
    | nil => rfl
    | cons info infos =>
      obtain ⟨-, -, is, his, -⟩ := hr.listed h _ info hget List.mem_cons_self
      rw [STHInfoRegister.instances?, hnone] at his
      cases his

theorem getD_restoreHubSnapshot (hr : m.sthInfoRegister.Records)
    (hnone : m.sthInfoRegister.hostsMap.get? h = none) :
    ((m.restoreHubSnapshot h snapshot).sthInfoRegister.sequencesStore.get? h).getD [] =
      snapshot.sequences := by
  rw [restoreHubSnapshot]
  split_ifs with hempty
  · rw [getD_eq_nil hr hnone, hempty]
  · rw [get?_set_self, Option.getD_some]

theorem restoreHubSnapshot_of_ne {h' : HostId} (hne : h ≠ h') :
    (m.restoreHubSnapshot h snapshot).sthInfoRegister.hostsMap.get? h' =
        m.sthInfoRegister.hostsMap.get? h' ∧
      (m.restoreHubSnapshot h snapshot).sthInfoRegister.sequencesStore.get? h' =
        m.sthInfoRegister.sequencesStore.get? h' := by
  refine ⟨get?_set_of_ne _ hne _, ?_⟩
  rw [restoreHubSnapshot]
  split_ifs
  · rfl
  · exact get?_set_of_ne _ hne _

theorem instances?_restoreHubSnapshot (hv : snapshot.Valid h) (s : SequenceId) :
    (m.restoreHubSnapshot h snapshot).sthInfoRegister.instances? h s =
      (snapshot.sequences.find? fun info => info.id = s).map fun info =>
        .ofEntries (info.instances.map fun i => (i, ())) := by
  rw [STHInfoRegister.instances?, restoreHubSnapshot, get?_set_self, Option.bind_some,
    get?_snapshotSequences hv.nodup]

theorem record?_restoreHubSnapshot (hr : m.sthInfoRegister.Records)
    (hnone : m.sthInfoRegister.hostsMap.get? h = none) (s : SequenceId) :
    (m.restoreHubSnapshot h snapshot).sthInfoRegister.record? h s =
      snapshot.sequences.find? fun info => info.id = s := by
  rw [STHInfoRegister.record?, getD_restoreHubSnapshot hr hnone]

theorem get?_restoreHubSnapshot (hv : snapshot.Valid h) (key : String) :
    (m.restoreHubSnapshot h snapshot).sthInfoRegister.instancesStore.get? key =
      ((ofEntries snapshot.instances).get? key).or
        (m.sthInfoRegister.instancesStore.get? key) :=
  get?_foldl_set hv.keys _ key

theorem records_restoreHubSnapshot (hr : m.sthInfoRegister.Records)
    (hnone : m.sthInfoRegister.hostsMap.get? h = none) (hv : snapshot.Valid h) :
    (m.restoreHubSnapshot h snapshot).sthInfoRegister.Records := by
  -- the records of the hub are those of the snapshot
  have hsequences : ∀ infos,
      (m.restoreHubSnapshot h snapshot).sthInfoRegister.sequencesStore.get? h = some infos →
        infos = snapshot.sequences := fun infos hget => by
    have hgetD : ((m.restoreHubSnapshot h snapshot).sthInfoRegister.sequencesStore.get? h).getD [] =
        snapshot.sequences := getD_restoreHubSnapshot hr hnone
    rwa [hget, Option.getD_some] at hgetD
  constructor
  · intro h' infos hget
    by_cases hne : h = h'
    · subst hne
      rw [hsequences infos hget]
      exact hv.nodup
    · rw [(restoreHubSnapshot_of_ne hne).2] at hget
      exact hr.nodup h' infos hget
  · intro h' infos info hget hmem
    by_cases hne : h = h'
    · subst hne
      rw [hsequences infos hget] at hmem
      obtain ⟨hlocation, hinstances⟩ := hv.located info hmem
      refine ⟨hlocation, hinstances, _, ?_, fun i => (has_ofEntries_instances hinstances i).symm⟩
      rw [instances?_restoreHubSnapshot hv, find?_of_mem hv.nodup hmem]
      rfl
    · rw [(restoreHubSnapshot_of_ne hne).2] at hget
      rw [STHInfoRegister.instances?_of_get? (restoreHubSnapshot_of_ne hne).1]
      exact hr.listed h' infos info hget hmem

end Restore

/-- The register without the hub of the controller. -/
def removed (m : ManagerState) (h : HostId) : STHInfoRegister :=
  (m.sthInfoRegister.clearHostEntities h).removeHub h

theorem hostsMap_removed (m : ManagerState) (h : HostId) :
    (m.removed h).hostsMap.get? h = none := by
  rw [removed, STHInfoRegister.removeHub, get?_delete_self]

theorem removed_of_ne (m : ManagerState) {h h' : HostId} (hne : h ≠ h') :
    (m.removed h).hostsMap.get? h' = m.sthInfoRegister.hostsMap.get? h' ∧
      (m.removed h).sequencesStore.get? h' = m.sthInfoRegister.sequencesStore.get? h' := by
  have hclear := m.sthInfoRegister.clearHostEntities_of_ne hne
  have hremove := STHInfoRegister.apply_of_ne (m.sthInfoRegister.clearHostEntities h) (.removeHub h)
    (h := h') hne
  exact ⟨hremove.1.trans hclear.1, hremove.2.trans hclear.2⟩

/-- The state without the registration, before the previous controller comes back. -/
def withdrawn (m : ManagerState) (k : ℕ) : ManagerState :=
  { m.updateController k fun sth => { sth with disposed := true } with
    registrations := m.registrations.delete k
    sthInfoRegister := m.removed (m.controllers k).id
    hubInventoryState := m.hubInventoryState.delete (m.controllers k).id
    sthConnectionStore := m.sthConnectionStore.delete (m.controllers k).id }

/-- The previous controller is the connection of the hub again. -/
def reconnected (m : ManagerState) (h : HostId) (previous : ℕ) : ManagerState :=
  { m with sthConnectionStore := m.sthConnectionStore.set h previous }

def restored (m : ManagerState) (h : HostId) (previous : ℕ) (snapshot : HubStateSnapshot) :
    ManagerState :=
  (m.reconnected h previous).restoreHubSnapshot h snapshot

@[simp] theorem connection_withdrawn (m : ManagerState) (k : ℕ) :
    (m.withdrawn k).sthConnectionStore = m.sthConnectionStore.delete (m.controllers k).id := rfl

@[simp] theorem inventory_withdrawn (m : ManagerState) (k : ℕ) :
    (m.withdrawn k).hubInventoryState = m.hubInventoryState.delete (m.controllers k).id := rfl

@[simp] theorem connection_restored (m : ManagerState) (h : HostId) (previous : ℕ)
    (snapshot : HubStateSnapshot) : (m.restored h previous snapshot).sthConnectionStore =
      m.sthConnectionStore.set h previous := rfl

theorem inventory_restored (m : ManagerState) (h h' : HostId) (previous : ℕ)
    (snapshot : HubStateSnapshot) : (m.restored h previous snapshot).hubInventoryState.get? h' =
      if h = h' then snapshot.inventory.or (m.hubInventoryState.get? h')
      else m.hubInventoryState.get? h' := by
  rw [restored, restoreHubSnapshot]
  cases snapshot.inventory with
  | none =>
    rw [Option.none_or, ite_self]
    rfl
  | some inventory => exact get?_set _ _ _ _

theorem initFailed_none {k : ℕ} (hget : m.registrations.get? k = some none) :
    m.initFailed k = m.withdrawn k := by
  simp only [initFailed, hget]
  rfl

theorem initFailed_some {k previous : ℕ} {snapshot : HubStateSnapshot}
    (hget : m.registrations.get? k = some (some (previous, snapshot)))
    (hid : (m.controllers previous).id = (m.controllers k).id) :
    m.initFailed k = (m.withdrawn k).restored (m.controllers k).id previous snapshot := by
  simp only [initFailed, hget, rollbackFailedSthRegistration, hid]
  rfl

theorem id_withdrawn (m : ManagerState) (k j : ℕ) :
    ((m.withdrawn k).controllers j).id = (m.controllers j).id := by
  simp only [withdrawn, updateController]
  split_ifs with hj
  · rw [hj]
  · rfl

theorem Kept.withdrawn (h : m.Kept) (k : ℕ) : (m.withdrawn k).Kept := by
  refine ⟨(h.records.clearHostEntities _).removeHub _, fun id j hget => ?_, fun j reg hget => ?_,
    fun removal hmem => ?_, h.topics⟩
  · simp only [ManagerState.withdrawn, get?_delete] at hget
    split_ifs at hget with hne
    obtain ⟨hlt, hid, hknown⟩ := h.connected id j hget
    rw [m.id_withdrawn]
    refine ⟨hlt, hid, ?_⟩
    rwa [show (m.withdrawn k).sthInfoRegister = m.removed (m.controllers k).id from rfl,
      STHInfoRegister.view_of_get? (m.removed_of_ne hne).1 (m.removed_of_ne hne).2]
  · simp only [ManagerState.withdrawn, get?_delete] at hget
    split_ifs at hget
    simp only [id_withdrawn]
    exact h.pending j reg hget
  · rw [id_withdrawn]
    exact h.removing removal hmem

theorem Kept.restored (h : m.Kept) {id : HostId} {previous : ℕ} {snapshot : HubStateSnapshot}
    (hnone : m.sthInfoRegister.hostsMap.get? id = none) (hprevious : previous < m.controllerCount)
    (hid : (m.controllers previous).id = id) (hv : snapshot.Valid id) :
    (m.restored id previous snapshot).Kept := by
  refine ⟨records_restoreHubSnapshot h.records hnone hv, fun id' k hget => ?_, h.pending, h.removing,
    h.topics⟩
  by_cases hne : id = id'
  · subst hne
    rw [connection_restored, get?_set_self] at hget
    cases hget
    refine ⟨hprevious, hid, ?_⟩
    simp [STHInfoRegister.view, ManagerState.restored, restoreHubSnapshot]
  · rw [connection_restored, get?_set_of_ne _ hne] at hget
    obtain ⟨hlt, hid', hknown⟩ := h.connected id' k hget
    refine ⟨hlt, hid', ?_⟩
    rwa [ManagerState.restored, STHInfoRegister.view_of_get? (restoreHubSnapshot_of_ne hne).1
      (restoreHubSnapshot_of_ne hne).2]

theorem Kept.initFailed (h : m.Kept) (k : ℕ) : (m.initFailed k).Kept := by
  cases hget : m.registrations.get? k with
  | none =>
    simp only [ManagerState.initFailed, hget]
    exact h
  | some reg =>
    cases reg with
    | none =>
      rw [initFailed_none hget]
      exact h.withdrawn k
    | some replaced =>
      obtain ⟨hlt, hpending⟩ := h.pending k _ hget
      obtain ⟨hprevious, hid, hv⟩ := hpending replaced.1 replaced.2 rfl
      rw [initFailed_some hget hid]
      exact (h.withdrawn k).restored (m.hostsMap_removed _) (hprevious.trans hlt)
        ((m.id_withdrawn _ _).trans hid) hv

theorem Kept.next (h : m.Kept) (a : Action) : (m.next a).Kept := by
  cases a with
  | register id domain self => exact h.handleSthRegistration id domain self
  | initFailed k => exact h.initFailed k
  | _ => exact h.keeps (m.keeps_next _ (by simp) (by simp))

theorem Kept.foldl (h : m.Kept) (as : List Action) : (as.foldl ManagerState.next m).Kept := by
  induction as generalizing m with
  | nil => exact h
  | cons a as ih => exact ih (h.next a)

theorem kept_start : start.Kept where
  records := consistent_start.records
  connected := nofun
  pending := nofun
  removing := nofun
  topics := ServiceDiscovery.owned_new

theorem kept_of_reachable (h : system.Reachable System.anyStep m) : m.Kept := by
  exact h.invariant_ofFun kept_start fun m a hm _ => hm.next a

/-- However registrations overlap, fail and are taken back, the connection of a hub is a controller
of that hub and of no other, and the register knows the hub. -/
theorem connections_known (as : List Action) :
    let m := as.foldl ManagerState.next start
    ∀ id k, m.sthConnectionStore.get? id = some k → (m.controllers k).id = id ∧
      (m.sthInfoRegister.view id).isSome ∧
        ∀ id', m.sthConnectionStore.get? id' = some k → id' = id := by
  intro m id k hget
  have h : m.Kept := kept_start.foldl as
  obtain ⟨-, hid, hknown⟩ := h.connected id k hget
  exact ⟨hid, hknown, fun id' hget' => (h.connected id' k hget').2.1.symm.trans hid⟩

/-- What any steps leave of a registration. -/
structure Later (m m' : ManagerState) : Prop where
  controllerCount : m.controllerCount ≤ m'.controllerCount
  ids : ∀ k < m.controllerCount, (m'.controllers k).id = (m.controllers k).id
  pending : ∀ k < m.controllerCount, ∀ reg,
    m'.registrations.get? k = some reg → m.registrations.get? k = some reg

theorem Later.trans (h : m.Later m') (h' : m'.Later m'') : m.Later m'' where
  controllerCount := h.controllerCount.trans h'.controllerCount
  ids := fun k hk => (h'.ids k (hk.trans_le h.controllerCount)).trans (h.ids k hk)
  pending := fun k hk reg hget => h.pending k hk reg
    (h'.pending k (hk.trans_le h.controllerCount) reg hget)

theorem Keeps.later (h : m.Keeps m') : m.Later m' where
  controllerCount := h.controllerCount.ge
  ids := fun k _ => h.ids k
  pending := fun k _ => h.pending k

theorem later_initFailed (h : m.Kept) (k : ℕ) : m.Later (m.initFailed k) := by
  have hwithdrawn : m.Later (m.withdrawn k) :=
    { controllerCount := le_rfl
      ids := fun j _ => m.id_withdrawn k j
      pending := fun j _ reg hget => by
        simp only [ManagerState.withdrawn, get?_delete] at hget
        split_ifs at hget
        exact hget }
  cases hget : m.registrations.get? k with
  | none =>
    simp only [ManagerState.initFailed, hget]
    exact (Keeps.refl m).later
  | some reg =>
    cases reg with
    | none =>
      rw [initFailed_none hget]
      exact hwithdrawn
    | some replaced =>
      obtain ⟨-, hpending⟩ := h.pending k _ hget
      rw [initFailed_some hget (hpending replaced.1 replaced.2 rfl).2.1]
      exact ⟨hwithdrawn.controllerCount, hwithdrawn.ids, hwithdrawn.pending⟩

theorem later_next (h : m.Kept) (a : Action) : m.Later (m.next a) := by
  cases a with
  | register id domain self =>
    have hreg := m.registers_handleSthRegistration id domain self
    refine ⟨by rw [next, hreg.controllerCount]; omega, fun k hk => ?_, fun k hk reg hget => ?_⟩
    · rw [next, hreg.controllers k hk]
    · rwa [next, hreg.registrations, get?_set_of_ne _ hk.ne'] at hget
  | initFailed k => exact later_initFailed h k
  | _ => exact (m.keeps_next _ (by simp) (by simp)).later

theorem later_foldl (h : m.Kept) (as : List Action) : m.Later (as.foldl next m) := by
  induction as generalizing m with
  | nil => exact (Keeps.refl m).later
  | cons a as ih => exact (later_next h a).trans (ih (h.next a))

end ManagerState

end TransformHub.Manager.SthRegistration

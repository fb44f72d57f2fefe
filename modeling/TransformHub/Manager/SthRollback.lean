import TransformHub.Manager.SthRegistrationRun

/-!
# Rollback of a registration

When a hub that is known registers again and the `init` of its new controller fails, the Manager
goes back to the previous controller, with the snapshot that it took before.
-/

namespace TransformHub.Manager.SthRegistration

open SthInfo OrderedMap

namespace ManagerState

variable {m m' : ManagerState}

/-! ## What is recorded for a hub -/

def hubActors (m : ManagerState) (h : HostId) (topicName : String) : List ℕ :=
  (m.serviceDiscovery.actorsOf topicName).filter fun i =>
    (m.serviceDiscovery.actors i).type = .host h && !m.serviceDiscovery.isRetired i

/-- The same is recorded for the hub; the instances are those that are stored under its keys. -/
structure SameHub (m m' : ManagerState) (h : HostId) : Prop where
  view : m'.sthInfoRegister.view h = m.sthInfoRegister.view h
  records : (m'.sthInfoRegister.sequencesStore.get? h).getD [] =
    (m.sthInfoRegister.sequencesStore.get? h).getD []
  instances : ∀ i, m'.sthInfoRegister.instancesStore.get? (getInstanceStoreKey h i) =
    m.sthInfoRegister.instancesStore.get? (getInstanceStoreKey h i)
  connection : m'.sthConnectionStore.get? h = m.sthConnectionStore.get? h
  inventory : m'.hubInventoryState.get? h = m.hubInventoryState.get? h
  actors : m'.hubActors h = m.hubActors h

/-- The other hubs keep what is recorded for them. -/
structure SparesHubs (m m' : ManagerState) (h : HostId) : Prop where
  view : ∀ h', h ≠ h' → m'.sthInfoRegister.view h' = m.sthInfoRegister.view h'
  records : ∀ h', h ≠ h' →
    m'.sthInfoRegister.sequencesStore.get? h' = m.sthInfoRegister.sequencesStore.get? h'
  instances : ∀ h' i, h ≠ h' → m.sthInfoRegister.Listed h' i →
    m'.sthInfoRegister.instancesStore.get? (getInstanceStoreKey h' i) =
      m.sthInfoRegister.instancesStore.get? (getInstanceStoreKey h' i)
  connection : ∀ h', h ≠ h' → m'.sthConnectionStore.get? h' = m.sthConnectionStore.get? h'
  inventory : ∀ h', h ≠ h' → m'.hubInventoryState.get? h' = m.hubInventoryState.get? h'
  actors : ∀ h', h ≠ h' → m'.hubActors h' = m.hubActors h'

/-- A registration that was begun at `s`, and whose `init` fails at `mid`, has left everything as it
was. -/
structure Restored (s begun mid after : ManagerState) (h : HostId) : Prop where
  same : s.SameHub after h
  begin_spares : s.SparesHubs begun h
  fail_spares : mid.SparesHubs after h

/-- When the snapshot taken at `s` is what a failure at `mid` needs. -/
structure Restorable (s mid : ManagerState) (h : HostId) : Prop where
  /-- every sequence of the hub was added with a configuration -/
  recorded : ∀ q, (s.sthInfoRegister.instances? h q).isSome → (s.sthInfoRegister.record? h q).isSome
  /-- no instance without a sequence has come under the keys of the hub -/
  strays : ∀ i, s.sthInfoRegister.instancesStore.get? (getInstanceStoreKey h i) = none →
    mid.sthInfoRegister.instancesStore.get? (getInstanceStoreKey h i) = none ∨
      mid.sthInfoRegister.Listed h i
  /-- the topics of the hub have not changed -/
  actors : mid.hubActors h = s.hubActors h
  /-- no instance of another hub is stored under the key of one of the hub's -/
  apart : ∀ h' i i', h ≠ h' → s.sthInfoRegister.Listed h i → s.sthInfoRegister.Listed h' i' →
    getInstanceStoreKey h i = getInstanceStoreKey h' i' →
      s.sthInfoRegister.instancesStore.get? (getInstanceStoreKey h i) = none
  /-- an instance of another hub that is stored under a key of the hub has not changed -/
  foreign : ∀ h' i i', h ≠ h' → mid.sthInfoRegister.Listed h' i' →
    getInstanceStoreKey h i = getInstanceStoreKey h' i' →
      s.sthInfoRegister.instancesStore.get? (getInstanceStoreKey h i) =
          mid.sthInfoRegister.instancesStore.get? (getInstanceStoreKey h i) ∨
        s.sthInfoRegister.instancesStore.get? (getInstanceStoreKey h i) = none ∧
          ¬ mid.sthInfoRegister.Listed h i

/-! ### The two registers -/

section Registers

variable {s mid : ManagerState} {id : HostId}

theorem view_eq (r : STHInfoRegister) (h : HostId) :
    r.view h = (r.hostsMap.get? h).map fun _ q => (r.instances? h q).map fun is =>
      ((r.record? h q).map (·.config), {i | is.has i = true}) := by
  cases hget : r.hostsMap.get? h <;> simp [STHInfoRegister.view, STHInfoRegister.instances?, hget]

theorem record?_eq_some {r : STHInfoRegister} (hr : r.Records) {h : HostId} {q : SequenceId}
    {info : SequenceInfo} (hinfo : r.record? h q = some info) :
    info.instances.Nodup ∧ ∃ is, r.instances? h q = some is ∧
      ∀ i, i ∈ info.instances ↔ is.has i = true := by
  rw [STHInfoRegister.record?] at hinfo
  have hmem := List.mem_of_find?_eq_some hinfo
  have hid := List.find?_some hinfo
  obtain rfl : info.id = q := of_decide_eq_true hid
  cases hget : r.sequencesStore.get? h with
  | none =>
    rw [hget] at hmem
    cases hmem
  | some infos =>
    rw [hget] at hmem
    exact (hr.listed h infos info hget hmem).2

theorem view_restored_iff (hr : s.sthInfoRegister.Records)
    (hknown : (s.sthInfoRegister.view id).isSome)
    (hmr : m.sthInfoRegister.Records) (hnone : m.sthInfoRegister.hostsMap.get? id = none) :
    (m.restoreHubSnapshot id (s.captureHubSnapshot id)).sthInfoRegister.view id =
        s.sthInfoRegister.view id ↔
      ∀ q, (s.sthInfoRegister.instances? id q).isSome → (s.sthInfoRegister.record? id q).isSome := by
  have hhosts : (m.restoreHubSnapshot id (s.captureHubSnapshot id)).sthInfoRegister.hostsMap.get? id =
      some (snapshotSequences (s.captureHubSnapshot id).sequences) := get?_set_self _ _ _
  obtain ⟨seqs, hseqs⟩ : ∃ seqs, s.sthInfoRegister.hostsMap.get? id = some seqs := by
    rwa [STHInfoRegister.view, Option.isSome_map, Option.isSome_iff_exists] at hknown
  rw [view_eq, view_eq, hhosts, hseqs, Option.map_some, Option.map_some, Option.some.injEq,
    funext_iff]
  refine forall_congr' fun q => ?_
  have hfind : ((s.captureHubSnapshot id).sequences.find? fun info => info.id = q) =
      s.sthInfoRegister.record? id q := rfl
  rw [instances?_restoreHubSnapshot (valid_captureHubSnapshot hr id),
    record?_restoreHubSnapshot hmr hnone, hfind]
  cases hinfo : s.sthInfoRegister.record? id q with
  | none => cases s.sthInfoRegister.instances? id q <;> simp
  | some info =>
    obtain ⟨hnodup, is, his, hiff⟩ := record?_eq_some hr hinfo
    have hset : {i | (ofEntries (info.instances.map fun i => (i, ())) :
        InstancesSet).has i = true} = {i | is.has i = true} := by
      ext i
      exact (has_ofEntries_instances hnodup i).trans (hiff i)
    simp only [his, hset, Option.map_some, Option.isSome_some, imp_self]

theorem get?_removed (m : ManagerState) (h : HostId) (key : String) :
    (∃ i, m.sthInfoRegister.Listed h i ∧ getInstanceStoreKey h i = key) ∧
        (m.removed h).instancesStore.get? key = none ∨
      (∀ i, m.sthInfoRegister.Listed h i → getInstanceStoreKey h i ≠ key) ∧
        (m.removed h).instancesStore.get? key = m.sthInfoRegister.instancesStore.get? key := by
  have hnot : ∀ i, ¬ (m.sthInfoRegister.clearHostEntities h).Listed h i := by
    rintro i ⟨q, seqs, e, hseqs, he, -⟩
    rw [STHInfoRegister.view_clearHostEntities, Option.map_eq_some_iff] at hseqs
    obtain ⟨_, -, rfl⟩ := hseqs
    cases he
  have hremove : (m.removed h).instancesStore.get? key =
      (m.sthInfoRegister.clearHostEntities h).instancesStore.get? key := by
    rcases (m.sthInfoRegister.clearHostEntities h).get?_clearHostEntities h key with
      ⟨⟨i, hi, -⟩, -⟩ | ⟨-, heq⟩
    · exact absurd hi (hnot i)
    · exact heq
  rw [hremove]
  exact m.sthInfoRegister.get?_clearHostEntities h key

section

variable (hr : s.sthInfoRegister.Records) (k previous : ℕ) (hid : (mid.controllers k).id = id)
include hr k previous hid

theorem get?_rolledBack (key : String) {after : ManagerState}
    (hafter : after = (mid.withdrawn k).restored id previous (s.captureHubSnapshot id)) :
    ((∃ i, getInstanceStoreKey id i = key) → after.sthInfoRegister.instancesStore.get? key =
      (s.sthInfoRegister.instancesStore.get? key).or ((mid.removed id).instancesStore.get? key)) ∧
    ((¬ ∃ i, getInstanceStoreKey id i = key) → after.sthInfoRegister.instancesStore.get? key =
      (mid.removed id).instancesStore.get? key) := by
  have hget : after.sthInfoRegister.instancesStore.get? key =
      ((ofEntries (s.captureHubSnapshot id).instances).get? key).or
        ((mid.removed id).instancesStore.get? key) := by
    rw [hafter, restored, get?_restoreHubSnapshot (valid_captureHubSnapshot hr id), ← hid]
    rfl
  rw [hget, get?_captured, ← key_prefix_iff]
  refine ⟨fun hp => ?_, fun hp => ?_⟩
  · rw [if_pos hp]
  · rw [if_neg hp, Option.none_or]

theorem instances_restored_iff {after : ManagerState}
    (hafter : after = (mid.withdrawn k).restored id previous (s.captureHubSnapshot id))
    (i : InstanceId) :
    after.sthInfoRegister.instancesStore.get? (getInstanceStoreKey id i) =
        s.sthInfoRegister.instancesStore.get? (getInstanceStoreKey id i) ↔
      (s.sthInfoRegister.instancesStore.get? (getInstanceStoreKey id i) = none →
        mid.sthInfoRegister.instancesStore.get? (getInstanceStoreKey id i) = none ∨
          mid.sthInfoRegister.Listed id i) := by
  rw [(get?_rolledBack hr k previous hid _ hafter).1 ⟨i, rfl⟩]
  cases s.sthInfoRegister.instancesStore.get? (getInstanceStoreKey id i) with
  | some inst => simp
  | none =>
    rw [Option.none_or]
    rcases mid.get?_removed id (getInstanceStoreKey id i) with ⟨⟨j, hj, hkey⟩, hnone⟩ | ⟨hnot, heq⟩
    · obtain rfl := getInstanceStoreKey_injective hkey
      exact ⟨fun _ _ => .inr hj, fun _ => hnone⟩
    · rw [heq]
      exact ⟨fun h _ => .inl h, fun h => (h rfl).resolve_right fun hl => hnot i hl rfl⟩

theorem foreign_restored_iff {after : ManagerState}
    (hafter : after = (mid.withdrawn k).restored id previous (s.captureHubSnapshot id))
    (key : String) :
    after.sthInfoRegister.instancesStore.get? key = mid.sthInfoRegister.instancesStore.get? key ↔
      ∀ i, getInstanceStoreKey id i = key →
        s.sthInfoRegister.instancesStore.get? key = mid.sthInfoRegister.instancesStore.get? key ∨
          s.sthInfoRegister.instancesStore.get? key = none ∧ ¬ mid.sthInfoRegister.Listed id i := by
  by_cases hown : ∃ i, getInstanceStoreKey id i = key
  · obtain ⟨i, rfl⟩ := hown
    rw [(get?_rolledBack hr k previous hid _ hafter).1 ⟨i, rfl⟩]
    have hall : ∀ P : InstanceId → Prop,
        (∀ j, getInstanceStoreKey id j = getInstanceStoreKey id i → P j) ↔ P i :=
      fun P => ⟨fun h => h i rfl, fun h j hj => getInstanceStoreKey_injective hj ▸ h⟩
    rw [hall]
    rcases mid.get?_removed id (getInstanceStoreKey id i) with ⟨⟨j, hj, hkey⟩, hnone⟩ | ⟨hnot, heq⟩
    · obtain rfl := getInstanceStoreKey_injective hkey
      rw [hnone, Option.or_none]
      exact ⟨.inl, fun h => h.resolve_right fun h => h.2 hj⟩
    · rw [heq]
      have hl : ¬ mid.sthInfoRegister.Listed id i := fun hl => hnot i hl rfl
      cases s.sthInfoRegister.instancesStore.get? (getInstanceStoreKey id i) with
      | none => simp [hl]
      | some inst => simp
  · rw [(get?_rolledBack hr k previous hid _ hafter).2 hown]
    refine ⟨fun _ i hi => absurd ⟨i, hi⟩ hown, fun _ => ?_⟩
    rcases mid.get?_removed id key with ⟨⟨j, -, hkey⟩, -⟩ | ⟨-, heq⟩
    · exact absurd ⟨j, hkey⟩ hown
    · exact heq

end

theorem register_spares_iff (hconn : (s.sthConnectionStore.get? id).isSome) (domain : String)
    (self : Bool) : s.SparesHubs (s.handleSthRegistration id domain self) id ↔
      ∀ h' i i', id ≠ h' → s.sthInfoRegister.Listed id i → s.sthInfoRegister.Listed h' i' →
        getInstanceStoreKey id i = getInstanceStoreKey h' i' →
          s.sthInfoRegister.instancesStore.get? (getInstanceStoreKey id i) = none := by
  obtain ⟨previous, hprevious⟩ := Option.isSome_iff_exists.mp hconn
  have hregister : (s.handleSthRegistration id domain self).sthInfoRegister =
      (s.sthInfoRegister.clearHostEntities id).addHub id := by
    simp only [handleSthRegistration, hprevious]
  have hstore : (s.handleSthRegistration id domain self).sthInfoRegister.instancesStore =
      (s.sthInfoRegister.clearHostEntities id).instancesStore := by
    rw [hregister, STHInfoRegister.addHub]
    split_ifs <;> rfl
  have hother : ∀ h', id ≠ h' →
      (s.handleSthRegistration id domain self).sthInfoRegister.hostsMap.get? h' =
          s.sthInfoRegister.hostsMap.get? h' ∧
        (s.handleSthRegistration id domain self).sthInfoRegister.sequencesStore.get? h' =
          s.sthInfoRegister.sequencesStore.get? h' := by
    intro h' hne
    have hclear := s.sthInfoRegister.clearHostEntities_of_ne hne
    have hadd := STHInfoRegister.apply_of_ne (s.sthInfoRegister.clearHostEntities id) (.addHub id)
      (h := h') hne
    rw [hregister]
    exact ⟨hadd.1.trans hclear.1, hadd.2.trans hclear.2⟩
  have hrest : ∀ h', id ≠ h' →
      (s.handleSthRegistration id domain self).sthConnectionStore.get? h' =
          s.sthConnectionStore.get? h' ∧
        (s.handleSthRegistration id domain self).hubInventoryState.get? h' =
          s.hubInventoryState.get? h' := by
    intro h' hne
    simp only [handleSthRegistration, hprevious, get?_set_of_ne _ hne,
      get?_delete_of_ne _ hne, and_self]
  have hactors : (s.handleSthRegistration id domain self).hubActors = s.hubActors := by
    simp only [handleSthRegistration, hprevious]
    rfl
  constructor
  · intro hspares h' i i' hne hl hl' hkey
    have hsame := hspares.instances h' i' hne hl'
    rw [hstore, ← hkey] at hsame
    rcases s.sthInfoRegister.get?_clearHostEntities id (getInstanceStoreKey id i) with
      ⟨-, hnone⟩ | ⟨hnot, -⟩
    · rw [← hsame, hnone]
    · exact absurd rfl (hnot i hl)
  · intro happart
    refine ⟨fun h' hne => STHInfoRegister.view_of_get? (hother h' hne).1 (hother h' hne).2,
      fun h' hne => (hother h' hne).2, fun h' i' hne hl' => ?_, fun h' hne => (hrest h' hne).1,
      fun h' hne => (hrest h' hne).2, fun h' _ => congrFun hactors h'⟩
    rw [hstore]
    rcases s.sthInfoRegister.get?_clearHostEntities id (getInstanceStoreKey h' i') with
      ⟨⟨i, hl, hkey⟩, hnone⟩ | ⟨-, heq⟩
    · rw [hnone, ← hkey, happart h' i i' hne hl hl' hkey]
    · exact heq

theorem same_restored_iff (hs : s.Kept) {k previous : ℕ}
    (hprevious : s.sthConnectionStore.get? id = some previous) (hm : mid.Kept)
    (hid : (mid.controllers k).id = id) {after : ManagerState}
    (hafter : after = (mid.withdrawn k).restored id previous (s.captureHubSnapshot id)) :
    s.SameHub after id ↔
      (∀ q, (s.sthInfoRegister.instances? id q).isSome →
        (s.sthInfoRegister.record? id q).isSome) ∧
      (∀ i, s.sthInfoRegister.instancesStore.get? (getInstanceStoreKey id i) = none →
        mid.sthInfoRegister.instancesStore.get? (getInstanceStoreKey id i) = none ∨
          mid.sthInfoRegister.Listed id i) ∧ mid.hubActors id = s.hubActors id := by
  have hrecords := (hm.withdrawn k).records
  have hnone : (mid.withdrawn k).sthInfoRegister.hostsMap.get? id = none := by
    rw [← hid]
    exact mid.hostsMap_removed _
  have hview := view_restored_iff (m := (mid.withdrawn k).reconnected id previous) hs.records
    (hs.connected id previous hprevious).2.2 hrecords hnone
  rw [← restored, ← hafter] at hview
  have hinstances := instances_restored_iff hs.records k previous hid hafter
  have hactors : after.hubActors id = mid.hubActors id := by
    rw [hafter]
    rfl
  constructor
  · intro h
    exact ⟨hview.mp h.view, fun i => (hinstances i).mp (h.instances i), hactors.symm.trans h.actors⟩
  · rintro ⟨hrecorded, hstrays, htopics⟩
    refine ⟨hview.mpr hrecorded, ?_, fun i => (hinstances i).mpr (hstrays i), ?_, ?_,
      hactors.trans htopics⟩
    · rw [hafter]
      exact getD_restoreHubSnapshot hrecords hnone
    · rw [hafter, hprevious, connection_restored, get?_set_self]
    · rw [hafter, inventory_restored, if_pos rfl, inventory_withdrawn, hid,
        get?_delete_self, Option.or_none]
      rfl

theorem fail_spares_iff (hs : s.Kept) {k previous : ℕ} (hid : (mid.controllers k).id = id)
    {after : ManagerState}
    (hafter : after = (mid.withdrawn k).restored id previous (s.captureHubSnapshot id)) :
    mid.SparesHubs after id ↔
      ∀ h' i i', id ≠ h' → mid.sthInfoRegister.Listed h' i' →
        getInstanceStoreKey id i = getInstanceStoreKey h' i' →
          s.sthInfoRegister.instancesStore.get? (getInstanceStoreKey id i) =
              mid.sthInfoRegister.instancesStore.get? (getInstanceStoreKey id i) ∨
            s.sthInfoRegister.instancesStore.get? (getInstanceStoreKey id i) = none ∧
              ¬ mid.sthInfoRegister.Listed id i := by
  have hinstances := foreign_restored_iff hs.records k previous hid hafter
  constructor
  · intro h h' i i' hne hl hkey
    have hsame := h.instances h' i' hne hl
    rw [hkey]
    exact (hinstances _).mp hsame i hkey
  · intro hforeign
    have hother : ∀ h', id ≠ h' → after.sthInfoRegister.hostsMap.get? h' =
          mid.sthInfoRegister.hostsMap.get? h' ∧ after.sthInfoRegister.sequencesStore.get? h' =
            mid.sthInfoRegister.sequencesStore.get? h' := by
      intro h' hne
      rw [hafter]
      have hrestore := @restoreHubSnapshot_of_ne ((mid.withdrawn k).reconnected id previous) id
        (s.captureHubSnapshot id) h' hne
      have hremove := mid.removed_of_ne (hid ▸ hne)
      exact ⟨hrestore.1.trans hremove.1, hrestore.2.trans hremove.2⟩
    refine ⟨fun h' hne => STHInfoRegister.view_of_get? (hother h' hne).1 (hother h' hne).2,
      fun h' hne => (hother h' hne).2, fun h' i' hne hl => ?_, fun h' hne => ?_, fun h' hne => ?_,
      fun h' _ => ?_⟩
    · refine (hinstances _).mpr fun i hkey => ?_
      have hcase := hforeign h' i i' hne hl hkey
      rwa [hkey] at hcase
    · rw [hafter, connection_restored, get?_set_of_ne _ hne, connection_withdrawn, hid,
        get?_delete_of_ne _ hne]
    · rw [hafter, inventory_restored, if_neg hne, inventory_withdrawn, hid,
        get?_delete_of_ne _ hne]
    · rw [hafter]
      rfl

end Registers

/-- A failed registration leaves everything as it was exactly when the snapshot says all there is to
say: whatever happens in between, and whenever `init` fails. -/
theorem restored_iff {s : ManagerState} (hs : system.Reachable System.anyStep s) {id : HostId}
    (hknown : s.sthConnectionStore.has id = true) (domain : String) (self : Bool)
    (as : List Action) {begun mid : ManagerState}
    (hbegun : begun = s.next (.register id domain self))
    (hmid : mid = as.foldl ManagerState.next begun)
    (hpending : mid.registrations.has s.controllerCount = true) :
    Restored s begun mid (mid.next (.initFailed s.controllerCount)) id ↔ Restorable s mid id := by
  have hkept := kept_of_reachable hs
  obtain ⟨previous, hprevious⟩ := has_iff.mp hknown
  have hreg := s.registers_handleSthRegistration id domain self
  -- the registration that awaits `init` is the one of this hub
  have hbkept : begun.Kept := hbegun ▸ hkept.next _
  have hmkept : mid.Kept := hmid ▸ hbkept.foldl as
  have hlater : begun.Later mid := hmid ▸ later_foldl hbkept as
  have hlt : s.controllerCount < begun.controllerCount := by
    rw [hbegun, ManagerState.next, hreg.controllerCount]
    omega
  have hid : (mid.controllers s.controllerCount).id = id := by
    rw [hlater.ids _ hlt, hbegun]
    exact hreg.id_new
  have hget : mid.registrations.get? s.controllerCount =
      some (some (previous, s.captureHubSnapshot id)) := by
    obtain ⟨reg, hget⟩ := has_iff.mp hpending
    have hfirst := hlater.pending _ hlt reg hget
    rw [hbegun, ManagerState.next, hreg.registrations, get?_set_self, replaces,
      hprevious] at hfirst
    rw [hget, ← hfirst]
    rfl
  have hids : (mid.controllers previous).id = (mid.controllers s.controllerCount).id :=
    ((hmkept.pending _ _ hget).2 _ _ rfl).2.1
  have hafter : mid.next (.initFailed s.controllerCount) =
      (mid.withdrawn s.controllerCount).restored id previous (s.captureHubSnapshot id) := by
    rw [ManagerState.next, initFailed_some hget hids, hid]
  have hsame := same_restored_iff hkept hprevious hmkept hid hafter
  have hspares := fail_spares_iff hkept hid hafter
  have hbegin := register_spares_iff (Option.isSome_iff_exists.mpr ⟨previous, hprevious⟩) domain self
  rw [show s.handleSthRegistration id domain self = begun from hbegun.symm] at hbegin
  constructor
  · intro h
    obtain ⟨hrecorded, hstrays, hactors⟩ := hsame.mp h.same
    exact ⟨hrecorded, hstrays, hactors, hbegin.mp h.begin_spares, hspares.mp h.fail_spares⟩
  · intro h
    exact ⟨hsame.mpr ⟨h.recorded, h.strays, h.actors⟩, hbegin.mpr h.apart, hspares.mpr h.foreign⟩

end ManagerState

/-! ## Two rollbacks -/

section Sample

def knownHub (config : Option SequenceConfig) : ManagerState :=
  [Action.register "a" "a.sth" false, .initResolved 0, .emit 0 (.sequenceCreated "s" config)].foldl
    ManagerState.next .start

def reregistered (config : Option SequenceConfig) : ManagerState :=
  (knownHub config).next (.register "a" "a.sth" false)

theorem knownHub_restorable :
    ManagerState.Restorable (knownHub (some ⟨none, none⟩)) (reregistered (some ⟨none, none⟩)) "a" := by
  have hstore : ∀ key,
      (knownHub (some ⟨none, none⟩)).sthInfoRegister.instancesStore.get? key = none := fun _ => rfl
  have hmid : ∀ key,
      (reregistered (some ⟨none, none⟩)).sthInfoRegister.instancesStore.get? key = none := fun _ => rfl
  refine ⟨fun q hq => ?_, fun i _ => .inl (hmid _), rfl, fun _ _ _ _ _ _ _ => hstore _,
    fun _ _ _ _ _ _ => .inl ((hstore _).trans (hmid _).symm)⟩
  obtain ⟨is, his⟩ := Option.isSome_iff_exists.mp hq
  obtain ⟨seqs, hseqs, hget⟩ := STHInfoRegister.instances?_eq_some.mp his
  have hentries : (knownHub (some ⟨none, none⟩)).sthInfoRegister.hostsMap.entries =
      [("a", .ofEntries [("s", .empty)])] := rfl
  have hmem := mem_entries_iff.mpr hseqs
  rw [hentries, List.mem_singleton, Prod.mk.injEq] at hmem
  have hone : ("s", empty) = (q, is) := by
    have hsequence := mem_entries_iff.mpr hget
    rw [hmem.2] at hsequence
    exact (List.mem_singleton.mp hsequence).symm
  cases hone
  rfl

/-- A sequence with a configuration comes back. -/
theorem knownHub_restored :
    ManagerState.Restored (knownHub (some ⟨none, none⟩)) (reregistered (some ⟨none, none⟩))
      (reregistered (some ⟨none, none⟩))
      ((reregistered (some ⟨none, none⟩)).next
        (.initFailed (knownHub (some ⟨none, none⟩)).controllerCount)) "a" :=
  (ManagerState.restored_iff (System.reachable_foldl _) (by decide +kernel) "a.sth" false [] rfl rfl
    (by decide +kernel)).mpr knownHub_restorable

/-- A sequence without one does not. -/
theorem knownHub_not_restored :
    ¬ ∀ s, system.Reachable System.anyStep s → ∀ id domain self,
      s.sthConnectionStore.has id = true → ∀ (as : List Action) (begun mid : ManagerState),
        begun = s.next (.register id domain self) → mid = as.foldl ManagerState.next begun →
          mid.registrations.has s.controllerCount = true →
            ManagerState.Restored s begun mid (mid.next (.initFailed s.controllerCount)) id := by
  intro hall
  have hview := (hall (knownHub none) (System.reachable_foldl _) "a" "a.sth" false
    (by decide +kernel) [] _ _ rfl rfl (by decide +kernel)).same.view
  have hsequence := congrArg (fun v => (v.map fun sequences => (sequences "s").isSome)) hview
  revert hsequence
  decide +kernel

end Sample

end TransformHub.Manager.SthRegistration

import TransformHub.Host.InstancesRegistry
import TransformHub.Lib.Inverse

/-!
# What the maps of the store have in common

The six maps of `InstancesStore` against each other. Every operation keeps the ids, the owners, the
manifests and the paths in step.
-/

namespace TransformHub.Host.Instances

open Js RestApi2

/-! ## Names and reserved ids -/

namespace InstancesStore

variable {store store' : InstancesStore} {instanceId instanceName : String}

theorem truthy_eq_some {s : Option String} {x : String} :
    truthy s = some x ↔ s = some x ∧ x ≠ "" := by
  simp [truthy, Option.filter_eq_some_iff]

theorem truthy_eq_none {s : Option String} : truthy s = none ↔ s = none ∨ s = some "" := by
  cases s with
  | none => simp [truthy]
  | some x => simp [truthy, Option.filter]

structure SameIds (store store' : InstancesStore) : Prop where
  controllers : store'.controllers = store.controllers
  reservedIds : store'.reservedIds = store.reservedIds

/-- No id is both reserved and live. -/
def Reserved (store : InstancesStore) : Prop := ∀ id ∈ store.reservedIds, store.get? id = none

theorem SameIds.reserved (h : store.SameIds store') (hr : store.Reserved) : store'.Reserved := by
  intro id hid
  rw [get?, h.controllers]
  exact hr id (h.reservedIds ▸ hid)

theorem sameIds_clearNameForInstance : store.SameIds (store.clearNameForInstance instanceId) := by
  unfold clearNameForInstance
  split <;> exact ⟨rfl, rfl⟩

theorem sameIds_setName : store.SameIds (store.setName instanceId instanceName) := by
  unfold setName
  split
  · split_ifs
    · exact ⟨rfl, rfl⟩
    · have hclear : store.SameIds (store.clearNameForInstance instanceId) :=
        sameIds_clearNameForInstance
      exact { hclear with }
  · exact ⟨rfl, rfl⟩

theorem sameIds_reserveName :
    store.SameIds ((store.reserveName instanceId instanceName).getD store) := by
  unfold reserveName
  split
  · split_ifs
    · exact sameIds_setName
    · exact ⟨rfl, rfl⟩
  · exact sameIds_setName

theorem sameIds_registerName : store.SameIds (store.registerName instanceId instanceName) := by
  unfold registerName
  split_ifs
  · exact sameIds_reserveName
  · exact ⟨rfl, rfl⟩

theorem sameIds_unregisterName : store.SameIds (store.unregisterName instanceId instanceName) := by
  unfold unregisterName
  split_ifs <;> exact ⟨rfl, rfl⟩

section

variable (h : store.Reserved)
include h

theorem Reserved.releaseId (instanceId : String) : (store.releaseId instanceId).Reserved :=
  fun id hid => h id (List.mem_filter.mp hid).1

theorem Reserved.reserveId (instanceId : String) :
    ((store.reserveId instanceId).getD store).Reserved := by
  unfold InstancesStore.reserveId
  split_ifs with htaken
  · exact h
  · simp only [Bool.or_eq_true, not_or, Bool.not_eq_true] at htaken
    intro id hid
    rcases List.mem_cons.mp hid with rfl | hid
    · have hhas := htaken.1
      rwa [has, OrderedMap.has, Option.isSome_eq_false_iff, Option.isNone_iff_eq_none] at hhas
    · exact h id hid

theorem Reserved.set (instanceId : String) (controller : ℕ) :
    (store.set instanceId controller).Reserved := by
  have hreleased : ({ store with
      controllers := store.controllers.set instanceId controller }.releaseId instanceId).Reserved := by
    intro id hid
    obtain ⟨hid, hne⟩ := List.mem_filter.mp hid
    have hne : instanceId ≠ id := fun heq => by simp [heq] at hne
    exact (OrderedMap.get?_set_of_ne _ hne _).trans (h id hid)
  unfold InstancesStore.set
  dsimp only
  split <;> exact hreleased

theorem Reserved.delete (instanceId : String) : (store.delete instanceId).Reserved := by
  have hcleared : ((store.releaseId instanceId).clearNameForInstance instanceId).Reserved :=
    sameIds_clearNameForInstance.reserved (h.releaseId instanceId)
  intro id hid
  have hnone : store.controllers.get? id = none := by
    have hget := hcleared id hid
    rwa [get?, controllers_clearNameForInstance] at hget
  rw [get?, controllers_delete, OrderedMap.get?_delete, hnone, ite_self]

end

/-- A name stands for an id exactly if the id has the name. -/
def NamesAgree (store : InstancesStore) : Prop := Inverse store.nameMap store.nameReverse

theorem NamesAgree.clearName (h : store.NamesAgree) (instanceId : String) :
    (store.clearNameForInstance instanceId).NamesAgree ∧
      (∀ name, name ≠ "" → (store.clearNameForInstance instanceId).nameReverse.get? instanceId ≠
        some name) ∧
      ∀ name, store.nameReverse.get? instanceId ≠ some name →
        (store.clearNameForInstance instanceId).nameMap.get? name = store.nameMap.get? name := by
  unfold clearNameForInstance
  cases hname : truthy (store.nameReverse.get? instanceId) with
  | none =>
    refine ⟨h, fun name hne hget => ?_, fun _ _ => rfl⟩
    rcases truthy_eq_none.mp hname with hnone | hempty
    · rw [hnone] at hget
      cases hget
    · rw [hempty] at hget
      exact hne (Option.some_inj.mp hget).symm
  | some currentName =>
    obtain ⟨hget, -⟩ := truthy_eq_some.mp hname
    have hmap : store.nameMap.get? currentName = some instanceId := (h currentName instanceId).mpr hget
    dsimp only
    rw [if_pos hmap]
    refine ⟨Inverse.unlink h hmap, fun name _ => by simp, fun name hother => ?_⟩
    have hne : currentName ≠ name := by
      rintro rfl
      exact hother hget
    exact OrderedMap.get?_delete_of_ne _ hne

/-- The names agree after one is set exactly if it stood for no other id, and the id had no other
name than one that is taken from it. -/
theorem NamesAgree.setName_iff (h : store.NamesAgree)
    (hmap : ∀ other, store.nameMap.get? instanceName = some other → other ≠ "" → other = instanceId) :
    (store.setName instanceId instanceName).NamesAgree ↔
      (store.nameMap.get? instanceName = some "" → instanceId = "") ∧
        (store.nameReverse.get? instanceId = some "" → instanceName = "") := by
  unfold setName NamesAgree
  dsimp only
  cases hname : truthy (store.nameReverse.get? instanceId) with
  | none =>
    dsimp only
    rw [Inverse.link_iff h]
    refine and_congr ⟨fun hfree hempty => (hfree "" hempty).symm, fun hfree other hget => ?_⟩
      ⟨fun hfree hempty => (hfree "" hempty).symm, fun hfree other hget => ?_⟩
    · by_cases hother : other = ""
      · subst hother
        exact (hfree hget).symm
      · exact hmap other hget hother
    · rcases truthy_eq_none.mp hname with hnone | hempty
      · rw [hnone] at hget
        cases hget
      · rw [hempty] at hget
        cases hget
        exact (hfree hempty).symm
  | some currentName =>
    obtain ⟨hget, hne⟩ := truthy_eq_some.mp hname
    have hright : store.nameReverse.get? instanceId = some "" → instanceName = "" := by
      intro hempty
      rw [hget] at hempty
      exact absurd (Option.some_inj.mp hempty) hne
    rw [and_iff_left hright]
    dsimp only
    split_ifs with hcurrent
    · -- the instance has the name
      subst hcurrent
      have hback : store.nameMap.get? currentName = some instanceId :=
        (h currentName instanceId).mpr hget
      rw [Inverse.link_iff h, hback, hget]
      simp
    · -- the instance has another name
      obtain ⟨hagree, hcleared, hsame⟩ := h.clearName instanceId
      have hsame := hsame instanceName (by simpa [hget] using hcurrent)
      rw [Inverse.link_iff hagree, hsame]
      constructor
      · intro hfree hempty
        exact (hfree.1 "" hempty).symm
      · intro hfree
        refine ⟨fun other hother => ?_, fun name hother => ?_⟩
        · by_cases hblank : other = ""
          · subst hblank
            exact (hfree hother).symm
          · exact hmap other hother hblank
        · by_cases hblank : name = ""
          · -- the empty name is not the one that was taken
            exfalso
            have hnone : (store.clearNameForInstance instanceId).nameReverse.get? instanceId =
                none := by
              unfold clearNameForInstance
              rw [hname]
              exact OrderedMap.get?_delete_self _ _
            rw [hnone] at hother
            cases hother
          · exact absurd hother (hcleared name hblank)

/-- A name can be given to an instance: it stands for another instance and is refused, or no empty
string is in the way. -/
def NameFree (store : InstancesStore) (instanceName instanceId : String) : Prop :=
  (∃ other, store.nameMap.get? instanceName = some other ∧ other ≠ "" ∧ other ≠ instanceId) ∨
    (store.nameMap.get? instanceName = some "" → instanceId = "") ∧
      (store.nameReverse.get? instanceId = some "" → instanceName = "")

section

variable (h : store.NamesAgree)
include h

theorem NamesAgree.reserveName_iff :
    ((store.reserveName instanceId instanceName).getD store).NamesAgree ↔
      store.NameFree instanceName instanceId := by
  unfold reserveName NameFree
  cases hmap : truthy (store.nameMap.get? instanceName) with
  | none =>
    have hblank : ∀ other, store.nameMap.get? instanceName = some other → ¬ other ≠ "" := by
      intro other hget
      rcases truthy_eq_none.mp hmap with hnone | hempty
      · rw [hnone] at hget
        cases hget
      · rw [hempty] at hget
        simp [← Option.some_inj.mp hget]
    rw [Option.getD_some, h.setName_iff fun other hget hne => absurd hne (hblank other hget)]
    refine ⟨.inr, fun hfree => hfree.resolve_left ?_⟩
    rintro ⟨other, hget, hne, -⟩
    exact hblank other hget hne
  | some existing =>
    obtain ⟨hget, hne⟩ := truthy_eq_some.mp hmap
    dsimp only
    split_ifs with hsame
    · subst hsame
      rw [Option.getD_some, h.setName_iff fun other hget' _ =>
        Option.some_inj.mp (hget'.symm.trans hget)]
      refine ⟨.inr, fun hfree => hfree.resolve_left ?_⟩
      rintro ⟨other, hget', -, hother⟩
      exact hother (Option.some_inj.mp (hget'.symm.trans hget))
    · exact iff_of_true h (.inl ⟨existing, hget, hne, hsame⟩)

theorem NamesAgree.registerName_iff :
    (store.registerName instanceId instanceName).NamesAgree ↔
      (store.has instanceId = true → store.NameFree instanceName instanceId) := by
  unfold registerName
  split_ifs with hlive
  · rw [h.reserveName_iff, forall_prop_of_true hlive]
  · exact iff_of_true h fun hhas => absurd hhas hlive

theorem NamesAgree.unregisterName (instanceId instanceName : String) :
    (store.unregisterName instanceId instanceName).NamesAgree := by
  unfold InstancesStore.unregisterName
  split_ifs with hname
  · exact Inverse.unlink h (truthy_eq_some.mp hname).1
  · exact h

theorem NamesAgree.set (instanceId : String) (controller : ℕ) :
    (store.set instanceId controller).NamesAgree := by
  unfold InstancesStore.set
  dsimp only
  split
  · rename_i name hname
    have hget : store.nameReverse.get? instanceId = some name := (truthy_eq_some.mp hname).1
    have hmap : store.nameMap.get? name = some instanceId := (h name instanceId).mpr hget
    -- the entry is there
    intro name' instanceId'
    dsimp only
    rw [OrderedMap.get?_set]
    split_ifs with hkey
    · rw [← hkey, ← hmap]
      exact h name instanceId'
    · exact h name' instanceId'
  · exact h

theorem NamesAgree.delete (instanceId : String) : (store.delete instanceId).NamesAgree := by
  have hreleased : (store.releaseId instanceId).NamesAgree := h
  exact (hreleased.clearName instanceId).1

end

end InstancesStore

namespace InstancesRegistry

/-! ## Paths -/

section Paths

variable {paths : OrderedMap String (List String)} {path instanceId : String}

def NoEmptyPath (paths : OrderedMap String (List String)) : Prop :=
  ∀ path ids, paths.get? path = some ids → ids ≠ []

/-- No path leads to an instance. -/
def Unexposed (instanceId : String) (paths : OrderedMap String (List String)) : Prop :=
  ∀ path ids, paths.get? path = some ids → instanceId ∉ ids

theorem get?_unexpose (path' : String) :
    (unexpose paths path instanceId).get? path' =
      if path = path' then
        ((paths.get? path).map (List.filter (· ≠ instanceId))).filter fun rest => !rest.isEmpty
      else paths.get? path' := by
  unfold unexpose
  cases hget : paths.get? path with
  | none =>
    split_ifs with hkey
    · rw [← hkey, hget]
      rfl
    · rfl
  | some ids =>
    dsimp only
    rw [Option.map_some]
    by_cases hrest : (ids.filter (· ≠ instanceId)).isEmpty = true
    · rw [if_pos hrest, OrderedMap.get?_delete, Option.filter_some, hrest]
      rfl
    · rw [if_neg hrest, OrderedMap.get?_set, Option.filter_some]
      simp only [Bool.not_eq_true] at hrest
      rw [hrest]
      rfl

theorem get?_unexpose_eq_some {path' : String} {ids : List String}
    (hget : (unexpose paths path instanceId).get? path' = some ids) :
    ∃ ids', paths.get? path' = some ids' ∧ ids ⊆ ids' ∧ (path = path' → instanceId ∉ ids ∧ ids ≠ []) ∧
      (path ≠ path' → ids = ids') := by
  rw [get?_unexpose] at hget
  split_ifs at hget with hkey
  · subst hkey
    obtain ⟨hmap, hne⟩ := Option.filter_eq_some_iff.mp hget
    obtain ⟨ids', hget', rfl⟩ := Option.map_eq_some_iff.mp hmap
    refine ⟨ids', hget', fun id hid => (List.mem_filter.mp hid).1, fun _ => ⟨?_, ?_⟩, fun hne' =>
      absurd rfl hne'⟩
    · simp
    · intro hnil
      rw [hnil] at hne
      cases hne
  · exact ⟨ids, hget, fun id hid => hid, fun heq => absurd heq hkey, fun _ => rfl⟩

theorem NoEmptyPath.unexpose (h : NoEmptyPath paths) (path instanceId : String) :
    NoEmptyPath (unexpose paths path instanceId) := by
  intro path' ids hget
  obtain ⟨ids', hget', -, hself, hother⟩ := get?_unexpose_eq_some hget
  by_cases hkey : path = path'
  · exact (hself hkey).2
  · rw [hother hkey]
    exact h path' ids' hget'

theorem Unexposed.unexpose {instanceId : String} (h : Unexposed instanceId paths)
    (path instanceId' : String) :
    Unexposed instanceId (InstancesRegistry.unexpose paths path instanceId') := by
  intro path' ids hget hmem
  obtain ⟨ids', hget', hsub, -⟩ := get?_unexpose_eq_some hget
  exact h path' ids' hget' (hsub hmem)

theorem unexposeLoop (instanceId : String) (visited : List String) (h : NoEmptyPath paths) :
    let left := visited.foldl (fun paths path =>
      if ((paths.get? path).getD []).contains instanceId then unexpose paths path instanceId
      else paths) paths
    NoEmptyPath left ∧ ∀ path ids, left.get? path = some ids →
      (path ∈ visited → instanceId ∉ ids) ∧ ∃ ids', paths.get? path = some ids' ∧ ids ⊆ ids' := by
  induction visited generalizing paths with
  | nil => exact ⟨h, fun path ids hget => ⟨fun hmem => absurd hmem (by simp), ids, hget, fun _ hid => hid⟩⟩
  | cons path visited ih =>
    simp only [List.foldl_cons]
    split_ifs with hmem
    · obtain ⟨hleft, hids⟩ := ih (h.unexpose path instanceId)
      refine ⟨hleft, fun path' ids hget => ?_⟩
      obtain ⟨hvisited, ids', hget', hsub⟩ := hids path' ids hget
      obtain ⟨ids'', hget'', hsub', hself, -⟩ := get?_unexpose_eq_some hget'
      refine ⟨fun hpath => ?_, ids'', hget'', List.Subset.trans hsub hsub'⟩
      rcases List.mem_cons.mp hpath with rfl | hpath
      · exact fun hid => (hself rfl).1 (hsub hid)
      · exact hvisited hpath
    · obtain ⟨hleft, hids⟩ := ih h
      refine ⟨hleft, fun path' ids hget => ?_⟩
      obtain ⟨hvisited, ids', hget', hsub⟩ := hids path' ids hget
      refine ⟨fun hpath => ?_, ids', hget', hsub⟩
      rcases List.mem_cons.mp hpath with rfl | hpath
      · intro hid
        rw [hget', Option.getD_some] at hmem
        exact hmem (List.contains_iff_mem.mpr (hsub hid))
      · exact hvisited hpath

theorem NoEmptyPath.unexposeAll (h : NoEmptyPath paths) (instanceId : String) :
    NoEmptyPath (unexposeAll instanceId paths) :=
  (unexposeLoop instanceId paths.keys h).1

theorem unexposed_unexposeAll (h : NoEmptyPath paths) (instanceId : String) :
    Unexposed instanceId (unexposeAll instanceId paths) := by
  intro path ids hget
  obtain ⟨hvisited, ids', hget', -⟩ := (unexposeLoop instanceId paths.keys h).2 path ids hget
  exact hvisited (OrderedMap.mem_keys_iff.mpr (by rw [hget']; rfl))

theorem Unexposed.unexposeAll {instanceId : String} (hu : Unexposed instanceId paths)
    (h : NoEmptyPath paths) (instanceId' : String) :
    Unexposed instanceId (InstancesRegistry.unexposeAll instanceId' paths) := by
  intro path ids hget hmem
  obtain ⟨-, ids', hget', hsub⟩ := (unexposeLoop instanceId' paths.keys h).2 path ids hget
  exact hu path ids' hget' (hsub hmem)

end Paths

/-! ## Owners -/

/-- Every controller of the store has one registration; a manifest belongs to one that is not
terminated, under the own id of its owner. -/
structure Registered (csi : ℕ → ICSI) (s : InstancesRegistry) : Prop where
  owners : ∀ id, (s.manifestOwners.get? id).map ManifestOwnerRegistration.owner = s.get? id
  keyed : ∀ id r, s.manifestOwners.get? id = some r → r.instanceId = id
  manifests : ∀ id p, s.instanceManifests.get? id = some p → (csi p.owner).id = id ∧
    ∃ r, s.manifestOwners.get? id = some r ∧ r.terminated = false ∧ r.owner = p.owner

variable {csi : ℕ → ICSI} {s s' : InstancesRegistry} {id : String} {owner : ℕ}
  {r : ManifestOwnerRegistration} {reason : ManifestRemovalReason}

theorem publicationOf_eq_some {p : InstanceManifestPublication} :
    s.publicationOf id owner = some p ↔ s.instanceManifests.get? id = some p ∧ p.owner = owner := by
  simp [publicationOf, Option.filter_eq_some_iff]

variable (s id r) in
def terminate : InstancesRegistry :=
  { s with manifestOwners := s.manifestOwners.set id { r with terminated := true } }

inductive Removal (csi : ℕ → ICSI) (s : InstancesRegistry) (owner : ℕ)
    (reason : ManifestRemovalReason) : InstancesRegistry → Prop where
  /-- the owner is not registered, or terminated already -/
  | none (h : ∀ r, s.manifestOwners.get? (csi owner).id = some r → r.owner = owner →
      r.terminated = true) : Removal csi s owner reason s
  /-- it has published nothing -/
  | silent (r : ManifestOwnerRegistration) (hget : s.manifestOwners.get? (csi owner).id = some r)
      (howner : r.owner = owner) (hactive : r.terminated = false)
      (hnone : s.publicationOf r.instanceId owner = none) :
      Removal csi s owner reason (s.terminate (csi owner).id r)
  | removed (r : ManifestOwnerRegistration) (p : InstanceManifestPublication)
      (hget : s.manifestOwners.get? (csi owner).id = some r)
      (howner : r.owner = owner) (hactive : r.terminated = false)
      (hsome : s.publicationOf r.instanceId owner = some p) :
      Removal csi s owner reason { s.terminate (csi owner).id r with
        instanceManifests := s.instanceManifests.delete r.instanceId
        changes := s.changes ++ [⟨.removed, r.instanceId, r.sequenceId, none, some p.revision, none,
          r.sequence, some reason, owner, r.number⟩] }

theorem removal (csi : ℕ → ICSI) (s : InstancesRegistry) (owner : ℕ)
    (reason : ManifestRemovalReason) :
    Removal csi s owner reason (s.removeManifest csi owner reason).1 := by
  unfold removeManifest
  cases hget : s.manifestOwners.get? (csi owner).id with
  | none => exact .none fun r hr => by rw [hget] at hr; cases hr
  | some r =>
    dsimp only
    split_ifs with hskip
    · refine .none fun r' hr' howner => ?_
      rw [hget] at hr'
      cases hr'
      exact hskip.resolve_left fun hne => hne howner
    · simp only [not_or, ne_eq, Decidable.not_not, Bool.not_eq_true] at hskip
      obtain ⟨howner, hactive⟩ := hskip
      have hpublication : InstancesRegistry.publicationOf { s with
          manifestOwners := s.manifestOwners.set (csi owner).id { r with terminated := true } }
          r.instanceId owner = s.publicationOf r.instanceId owner := rfl
      rw [hpublication]
      cases hsome : s.publicationOf r.instanceId owner with
      | none => exact .silent r hget howner hactive hsome
      | some p => exact .removed r p hget howner hactive hsome

/-- What a removal leaves alone. -/
structure SameStore (s s' : InstancesRegistry) : Prop where
  store : s'.toInstancesStore = s.toInstancesStore
  exposePathMap : s'.exposePathMap = s.exposePathMap

theorem sameStore_removeManifest (csi : ℕ → ICSI) (s : InstancesRegistry) (owner : ℕ)
    (reason : ManifestRemovalReason) : s.SameStore (s.removeManifest csi owner reason).1 := by
  have hremoval := removal csi s owner reason
  generalize (s.removeManifest csi owner reason).1 = s' at hremoval ⊢
  cases hremoval <;> exact ⟨rfl, rfl⟩

theorem Registered.removeManifest (h : s.Registered csi) (owner : ℕ)
    (reason : ManifestRemovalReason) : (s.removeManifest csi owner reason).1.Registered csi := by
  -- the registration is the same but for its end
  have howners : ∀ {r : ManifestOwnerRegistration}, s.manifestOwners.get? (csi owner).id = some r →
      ∀ id, ((s.terminate (csi owner).id r).manifestOwners.get? id).map
        ManifestOwnerRegistration.owner = s.get? id := by
    intro r hget id
    rw [← h.owners id, terminate, OrderedMap.get?_set]
    split_ifs with hkey
    · rw [← hkey, hget]
      rfl
    · rfl
  have hkeyed : ∀ {r : ManifestOwnerRegistration}, s.manifestOwners.get? (csi owner).id = some r →
      ∀ id r', (s.terminate (csi owner).id r).manifestOwners.get? id = some r' →
        r'.instanceId = id := by
    intro r hget id r' hget'
    rw [terminate, OrderedMap.get?_set] at hget'
    split_ifs at hget' with hkey
    · cases hget'
      exact (h.keyed _ r hget).trans hkey
    · exact h.keyed id r' hget'
  have hremoval := removal csi s owner reason
  generalize (s.removeManifest csi owner reason).1 = s' at hremoval ⊢
  cases hremoval with
  | none => exact h
  | silent r hget howner hactive hnone =>
    refine ⟨howners hget, hkeyed hget, fun id p hp => ?_⟩
    obtain ⟨hid, r', hr', hactive', howner'⟩ := h.manifests id p hp
    refine ⟨hid, r', ?_, hactive', howner'⟩
    refine (OrderedMap.get?_set_of_ne _ ?_ _).trans hr'
    rintro rfl
    rw [hget] at hr'
    cases hr'
    -- the owner would have published
    rw [h.keyed _ r hget] at hnone
    have hsome : s.publicationOf (csi owner).id owner = some p :=
      publicationOf_eq_some.mpr ⟨hp, howner'.symm.trans howner⟩
    rw [hnone] at hsome
    cases hsome
  | removed r p₀ hget howner hactive hsome =>
    refine ⟨howners hget, hkeyed hget, fun id p hp => ?_⟩
    rw [h.keyed _ r hget, OrderedMap.get?_delete] at hp
    split_ifs at hp with hkey
    obtain ⟨hid, r', hr', hactive', howner'⟩ := h.manifests id p hp
    exact ⟨hid, r', (OrderedMap.get?_set_of_ne _ hkey _).trans hr', hactive', howner'⟩

theorem Registered.no_manifest (h : s.Registered csi) (hlive : s.get? id = some owner)
    (reason : ManifestRemovalReason) :
    (s.removeManifest csi owner reason).1.instanceManifests.get? id = none := by
  have hafter := h.removeManifest owner reason
  obtain ⟨hstore, -⟩ := sameStore_removeManifest csi s owner reason
  by_contra hsome
  obtain ⟨p, hp⟩ := Option.ne_none_iff_exists'.mp hsome
  obtain ⟨hid, r', hr', hactive', howner'⟩ := hafter.manifests id p hp
  -- it would be the owner's
  have howner : r'.owner = owner := by
    have howners := hafter.owners id
    rw [hr', InstancesStore.get?, hstore, ← InstancesStore.get?, hlive] at howners
    exact Option.some_inj.mp howners
  have hkey : (csi owner).id = id := by rw [← hid, ← howner', howner]
  have hremoval := removal csi s owner reason
  generalize (s.removeManifest csi owner reason).1 = s' at hremoval hr'
  cases hremoval with
  | none hdone =>
    have hterminated := hdone r' (hkey ▸ hr') howner
    rw [hactive'] at hterminated
    cases hterminated
  | silent r hget _ _ _ | removed r p₀ hget _ _ _ =>
    rw [terminate, hkey, OrderedMap.get?_set_self] at hr'
    cases hr'
    cases hactive'

/-- The registration under an id is gone, and its manifest with it. -/
structure Vacated (csi : ℕ → ICSI) (s : InstancesRegistry) (id : String) : Prop where
  owners : ∀ id', id ≠ id' →
    (s.manifestOwners.get? id').map ManifestOwnerRegistration.owner = s.get? id'
  keyed : ∀ id' r, s.manifestOwners.get? id' = some r → r.instanceId = id'
  manifests : ∀ id' p, s.instanceManifests.get? id' = some p → id ≠ id' ∧ (csi p.owner).id = id' ∧
    ∃ r, s.manifestOwners.get? id' = some r ∧ r.terminated = false ∧ r.owner = p.owner

theorem Registered.vacate (h : s.Registered csi) (hlive : s.get? id = some owner)
    (reason : ManifestRemovalReason) :
    Vacated csi { (s.removeManifest csi owner reason).1 with
      manifestOwners := (s.removeManifest csi owner reason).1.manifestOwners.delete id } id := by
  have hafter := h.removeManifest owner reason
  refine ⟨fun id' hne => ?_, fun id' r hr => ?_, fun id' p hp => ?_⟩
  · rw [OrderedMap.get?_delete_of_ne _ hne]
    exact hafter.owners id'
  · rw [OrderedMap.get?_delete] at hr
    split_ifs at hr
    exact hafter.keyed id' r hr
  · have hne : id ≠ id' := by
      rintro rfl
      have hnone := h.no_manifest hlive reason
      rw [hp] at hnone
      cases hnone
    obtain ⟨hid, r, hr, hactive, howner⟩ := hafter.manifests id' p hp
    exact ⟨hne, hid, r, (OrderedMap.get?_delete_of_ne _ hne).trans hr, hactive, howner⟩

theorem Registered.vacated (h : s.Registered csi) (hdead : s.get? id = none) :
    Vacated csi s id where
  owners := fun id' _ => h.owners id'
  keyed := h.keyed
  manifests := fun id' p hp => by
    obtain ⟨hid, r, hr, hactive, howner⟩ := h.manifests id' p hp
    refine ⟨?_, hid, r, hr, hactive, howner⟩
    rintro rfl
    have howners := h.owners id
    rw [hr, hdead] at howners
    cases howners

theorem Vacated.capture (h : Vacated csi s id) (value : ℕ) {s' : InstancesRegistry}
    (howners : s'.manifestOwners = (s.captureManifestOwner csi id value).manifestOwners)
    (hmanifests : s'.instanceManifests = s.instanceManifests)
    (hstore : s'.controllers = s.controllers.set id value) : s'.Registered csi := by
  refine ⟨fun id' => ?_, fun id' r hr => ?_, fun id' p hp => ?_⟩
  · rw [howners, captureManifestOwner, InstancesStore.get?, hstore, OrderedMap.get?_set,
      OrderedMap.get?_set]
    split_ifs with hkey
    · rfl
    · exact h.owners id' hkey
  · rw [howners, captureManifestOwner, OrderedMap.get?_set] at hr
    split_ifs at hr with hkey
    · cases hr
      exact hkey
    · exact h.keyed id' r hr
  · rw [hmanifests] at hp
    obtain ⟨hne, hid, r, hr, hactive, howner⟩ := h.manifests id' p hp
    refine ⟨hid, r, ?_, hactive, howner⟩
    rw [howners, captureManifestOwner, OrderedMap.get?_set_of_ne _ hne, hr]

theorem controllers_set_store (s : InstancesRegistry) (id : String) (value : ℕ) :
    (s.toInstancesStore.set id value).controllers = s.controllers.set id value :=
  s.toInstancesStore.controllers_set id value

theorem Registered.setAgain (h : s.Registered csi) {value : ℕ} (hlive : s.get? id = some value)
    {s' : InstancesRegistry} (howners : s'.manifestOwners = s.manifestOwners)
    (hmanifests : s'.instanceManifests = s.instanceManifests)
    (hstore : s'.controllers = s.controllers.set id value) : s'.Registered csi := by
  refine ⟨fun id' => ?_, howners ▸ h.keyed, fun id' p hp => ?_⟩
  · rw [howners, h.owners id', InstancesStore.get?, InstancesStore.get?, hstore, OrderedMap.get?_set]
    split_ifs with hkey
    · rw [← hkey]
      exact hlive
    · rfl
  · rw [howners]
    exact h.manifests id' p (hmanifests ▸ hp)

theorem Registered.set (h : s.Registered csi) (id : String) (value : ℕ) :
    (s.set csi id value).Registered csi := by
  unfold InstancesRegistry.set replaceOwner
  cases hget : s.get? id with
  | none =>
    dsimp only
    rw [if_pos (.inl (by simp))]
    exact (h.vacated hget).capture value rfl rfl (controllers_set_store _ _ _)
  | some current =>
    dsimp only
    by_cases hsame : current = value
    · subst hsame
      have hhas : s.manifestOwners.has id = true := by
        have howners := congrArg Option.isSome (h.owners id)
        rwa [Option.isSome_map, hget] at howners
      rw [if_pos rfl, if_neg (by simp [hhas])]
      exact h.setAgain hget rfl rfl (controllers_set_store _ _ _)
    · rw [if_neg hsame, if_pos (.inl (by simpa using hsame))]
      refine (h.vacate hget .instanceReplaced).capture value rfl rfl ?_
      exact controllers_set_store _ _ _

theorem Vacated.delete (h : Vacated csi s id) {s' : InstancesRegistry}
    (howners : ∀ id', s'.manifestOwners.get? id' = if id = id' then none
      else s.manifestOwners.get? id')
    (hmanifests : ∀ id', s'.instanceManifests.get? id' = if id = id' then none
      else s.instanceManifests.get? id')
    (hstore : s'.controllers = s.controllers.delete id) : s'.Registered csi := by
  refine ⟨fun id' => ?_, fun id' r hr => ?_, fun id' p hp => ?_⟩
  · rw [howners, InstancesStore.get?, hstore, OrderedMap.get?_delete]
    split_ifs with hkey
    · rfl
    · exact h.owners id' hkey
  · rw [howners] at hr
    split_ifs at hr
    exact h.keyed id' r hr
  · rw [hmanifests] at hp
    split_ifs at hp with hkey
    obtain ⟨-, hid, r, hr, hactive, howner⟩ := h.manifests id' p hp
    exact ⟨hid, r, by rw [howners, if_neg hkey, hr], hactive, howner⟩

theorem Registered.delete (h : s.Registered csi) (id : String) :
    (s.delete csi id).Registered csi := by
  unfold InstancesRegistry.delete
  cases hget : s.get? id with
  | none =>
    exact (h.vacated hget).delete (fun _ => OrderedMap.get?_delete _ _ _)
      (fun _ => OrderedMap.get?_delete _ _ _) (s.toInstancesStore.controllers_delete id)
  | some current =>
    refine (h.vacate hget .instanceDeleted).delete (fun id' => ?_)
      (fun _ => OrderedMap.get?_delete _ _ _) (InstancesStore.controllers_delete _ id)
    dsimp only
    rw [OrderedMap.get?_delete]
    split_ifs <;> rfl

theorem registered_empty {s : InstancesRegistry} (hstore : s.controllers = .empty)
    (howners : s.manifestOwners = .empty) (hmanifests : s.instanceManifests = .empty) :
    s.Registered csi := by
  refine ⟨fun id => ?_, fun id r hr => ?_, fun id p hp => ?_⟩
  · rw [howners, InstancesStore.get?, hstore]
    rfl
  · rw [howners] at hr
    cases hr
  · rw [hmanifests] at hp
    cases hp

theorem publishManifest_eq_ok {declaration : JsValue} {revision : Revision}
    {receipt : ManifestReceipt}
    (h : s.publishManifest csi owner declaration revision = .ok (s', receipt)) :
    ∃ r manifest, s.manifestOwners.get? (csi owner).id = some r ∧ r.owner = owner ∧
      r.terminated = false ∧ s.get? r.instanceId = some owner ∧
      snapshotManifestDeclaration declaration = some manifest ∧
      s' = { s with
        instanceManifests := s.instanceManifests.set r.instanceId ⟨owner, manifest, revision⟩
        changes := s.changes ++ [{
          action := if (s.publicationOf r.instanceId owner).isSome then .updated else .published
          instanceId := r.instanceId
          sequenceId := r.sequenceId
          revision := some revision
          previousRevision :=
            (s.publicationOf r.instanceId owner).map InstanceManifestPublication.revision
          manifest := some manifest
          sequence := r.sequence
          reason := none
          owner := owner
          registration := r.number }] } := by
  unfold publishManifest currentOwner at h
  cases hget : s.manifestOwners.get? (csi owner).id with
  | none =>
    rw [hget] at h
    cases h
  | some r =>
    rw [hget] at h
    dsimp only at h
    split_ifs at h with hcurrent
    · obtain ⟨howner, hlive⟩ := hcurrent
      dsimp only at h
      have hactive : r.terminated = false := by
        by_contra hterminated
        rw [if_pos (by simpa using hterminated)] at h
        cases h
      rw [if_neg (by simp [hactive])] at h
      cases hsnapshot : snapshotManifestDeclaration declaration with
      | none =>
        rw [hsnapshot] at h
        cases h
      | some manifest =>
        rw [hsnapshot] at h
        dsimp only at h
        rw [snapshot_json] at h
        cases h
        exact ⟨r, manifest, rfl, howner, hactive, hlive, rfl, rfl⟩

theorem Registered.publishManifest (h : s.Registered csi) {declaration : JsValue}
    {revision : Revision}
    {receipt : ManifestReceipt}
    (hok : s.publishManifest csi owner declaration revision = .ok (s', receipt)) :
    s'.Registered csi := by
  obtain ⟨r, manifest, hget, howner, hactive, -, -, rfl⟩ := publishManifest_eq_ok hok
  refine ⟨h.owners, h.keyed, fun id p hp => ?_⟩
  rw [OrderedMap.get?_set, h.keyed _ r hget] at hp
  split_ifs at hp with hkey
  · cases hp
    exact ⟨hkey, r, hkey ▸ hget, hactive, howner⟩
  · exact h.manifests id p hp

theorem Registered.congr (h : s.Registered csi) (hcontrollers : s'.controllers = s.controllers)
    (howners : s'.manifestOwners = s.manifestOwners)
    (hmanifests : s'.instanceManifests = s.instanceManifests) : s'.Registered csi := by
  refine ⟨fun id => ?_, howners ▸ h.keyed, fun id p hp => ?_⟩
  · rw [howners, h.owners id, InstancesStore.get?, InstancesStore.get?, hcontrollers]
  · rw [howners]
    exact h.manifests id p (hmanifests ▸ hp)

theorem Registered.next (h : s.Registered csi) (a : RegistryAction) :
    (s.next csi a).Registered csi := by
  cases a with
  | set id value => exact h.set id value
  | delete id => exact h.delete id
  | clear => exact registered_empty rfl rfl rfl
  | reserveId id =>
    refine h.congr ?_ rfl rfl
    show ((s.toInstancesStore.reserveId id).getD s.toInstancesStore).controllers = _
    cases hreserve : s.toInstancesStore.reserveId id with
    | none => rfl
    | some store => exact InstancesStore.controllers_reserveId hreserve
  | releaseId | registerRpc | unregisterRpc => exact h.congr rfl rfl rfl
  | reserveName => exact h.congr InstancesStore.sameIds_reserveName.controllers rfl rfl
  | registerName => exact h.congr InstancesStore.sameIds_registerName.controllers rfl rfl
  | unregisterName => exact h.congr InstancesStore.sameIds_unregisterName.controllers rfl rfl
  | publishManifest owner declaration revision =>
    simp only [InstancesRegistry.next]
    split
    · exact h
    · rename_i hok
      exact h.publishManifest hok
  | removeManifest owner reason => exact h.removeManifest owner reason

/-! ## The store as a whole -/

/-- The maps are in step. -/
structure Consistent (s : InstancesRegistry) : Prop where
  /-- names and ids stand for each other -/
  names : s.NamesAgree
  /-- no id is both reserved and live -/
  reserved : s.Reserved
  /-- every live id has one registration, of its controller -/
  owners : ∀ id, (s.manifestOwners.get? id).map ManifestOwnerRegistration.owner = s.get? id
  /-- a manifest is that of a registration that is not terminated, of the live controller -/
  manifests : ∀ id p, s.instanceManifests.get? id = some p → s.get? id = some p.owner ∧
    ∃ r, s.manifestOwners.get? id = some r ∧ r.terminated = false ∧ r.owner = p.owner
  /-- no path leads nowhere -/
  paths : NoEmptyPath s.exposePathMap

theorem Registered.manifest_live (h : s.Registered csi) {p : InstanceManifestPublication}
    (hp : s.instanceManifests.get? id = some p) : s.get? id = some p.owner := by
  obtain ⟨-, r, hr, -, howner⟩ := h.manifests id p hp
  rw [← h.owners id, hr, ← howner]
  rfl

theorem Registered.consistent_iff (h : s.Registered csi) (hreserved : s.Reserved)
    (hpaths : NoEmptyPath s.exposePathMap) : s.Consistent ↔ s.NamesAgree :=
  ⟨Consistent.names, fun hnames => ⟨hnames, hreserved, h.owners,
    fun id p hp => ⟨h.manifest_live hp, (h.manifests id p hp).2⟩, hpaths⟩⟩

variable (s) in
/-- A name is given only where no empty string is in the way. -/
def KeepsNames : RegistryAction → Prop
  | .reserveName instanceName instanceId => s.NameFree instanceName instanceId
  | .registerName instanceName instanceId =>
    s.has instanceId = true → s.NameFree instanceName instanceId
  | _ => True

section

variable (csi s id)
include csi s id

theorem sameStore_replaceOwner (value : ℕ) : s.SameStore (s.replaceOwner csi id value) := by
  unfold replaceOwner
  cases s.get? id with
  | none => exact ⟨rfl, rfl⟩
  | some current =>
    dsimp only
    split_ifs
    · exact ⟨rfl, rfl⟩
    · have hremove := sameStore_removeManifest csi s current .instanceReplaced
      exact { hremove with }

theorem set_store (value : ℕ) :
    (s.set csi id value).toInstancesStore = s.toInstancesStore.set id value ∧
      (s.set csi id value).exposePathMap = s.exposePathMap := by
  have hreplace := sameStore_replaceOwner csi s id value
  unfold InstancesRegistry.set
  dsimp only
  split_ifs
  all_goals exact ⟨congrArg (fun store => store.set id value) hreplace.store, hreplace.exposePathMap⟩

theorem delete_store :
    (s.delete csi id).toInstancesStore = s.toInstancesStore.delete id ∧
      (s.delete csi id).exposePathMap = unexposeAll id s.exposePathMap := by
  unfold InstancesRegistry.delete
  cases s.get? id with
  | none => exact ⟨rfl, rfl⟩
  | some current =>
    have hremove := sameStore_removeManifest csi s current .instanceDeleted
    exact ⟨congrArg (fun store => store.delete id) hremove.store,
      congrArg (unexposeAll id) hremove.exposePathMap⟩

end

theorem namesAgree_next_iff (hnames : s.NamesAgree) (a : RegistryAction) :
    (s.next csi a).NamesAgree ↔ s.KeepsNames a := by
  cases a with
  | set id value =>
    rw [InstancesRegistry.next, (set_store csi s id value).1]
    exact iff_true_intro (hnames.set id value)
  | delete id =>
    rw [InstancesRegistry.next, (delete_store csi s id).1]
    exact iff_true_intro (hnames.delete id)
  | clear => exact iff_true_intro Inverse.empty
  | reserveId id =>
    refine iff_true_intro ?_
    simp only [InstancesRegistry.next, InstancesStore.reserveId]
    split_ifs <;> exact hnames
  | releaseId | registerRpc | unregisterRpc => exact iff_true_intro hnames
  | reserveName name id => exact hnames.reserveName_iff
  | registerName name id => exact hnames.registerName_iff
  | unregisterName name id => exact iff_true_intro (hnames.unregisterName id name)
  | publishManifest owner declaration revision =>
    refine iff_true_intro ?_
    simp only [InstancesRegistry.next]
    split
    · exact hnames
    · rename_i hok
      obtain ⟨r, manifest, -, -, -, -, -, rfl⟩ := publishManifest_eq_ok hok
      exact hnames
  | removeManifest owner reason =>
    rw [InstancesRegistry.next, (sameStore_removeManifest csi s owner reason).store]
    exact iff_true_intro hnames

theorem reserved_next (hreserved : s.Reserved) (a : RegistryAction) : (s.next csi a).Reserved := by
  cases a with
  | set id value =>
    rw [InstancesRegistry.next, (set_store csi s id value).1]
    exact hreserved.set id value
  | delete id =>
    rw [InstancesRegistry.next, (delete_store csi s id).1]
    exact hreserved.delete id
  | clear => exact fun id hid => nomatch hid
  | reserveId id => exact hreserved.reserveId id
  | releaseId id => exact hreserved.releaseId id
  | registerRpc | unregisterRpc => exact hreserved
  | reserveName => exact InstancesStore.sameIds_reserveName.reserved hreserved
  | registerName => exact InstancesStore.sameIds_registerName.reserved hreserved
  | unregisterName => exact InstancesStore.sameIds_unregisterName.reserved hreserved
  | publishManifest owner declaration revision =>
    simp only [InstancesRegistry.next]
    split
    · exact hreserved
    · rename_i hok
      obtain ⟨r, manifest, -, -, -, -, -, rfl⟩ := publishManifest_eq_ok hok
      exact hreserved
  | removeManifest owner reason =>
    rw [InstancesRegistry.next, (sameStore_removeManifest csi s owner reason).store]
    exact hreserved

def touchesPaths : RegistryAction → Bool
  | .delete _ | .clear | .registerRpc _ _ | .unregisterRpc _ _ => true
  | _ => false

theorem exposePathMap_next {a : RegistryAction} (ha : touchesPaths a = false) :
    (s.next csi a).exposePathMap = s.exposePathMap := by
  cases a with
  | set id value => exact (set_store csi s id value).2
  | delete | clear | registerRpc | unregisterRpc => cases ha
  | reserveId | releaseId | reserveName | registerName | unregisterName => rfl
  | publishManifest owner declaration revision =>
    simp only [InstancesRegistry.next]
    split
    · rfl
    · rename_i hok
      obtain ⟨r, manifest, -, -, -, -, -, rfl⟩ := publishManifest_eq_ok hok
      rfl
  | removeManifest owner reason => exact (sameStore_removeManifest csi s owner reason).exposePathMap

theorem noEmptyPath_next (h : NoEmptyPath s.exposePathMap) (a : RegistryAction) :
    NoEmptyPath (s.next csi a).exposePathMap := by
  cases a with
  | delete id =>
    rw [InstancesRegistry.next, (delete_store csi s id).2]
    exact h.unexposeAll id
  | clear => exact fun path ids hget => nomatch hget
  | registerRpc path id =>
    intro path' ids hget
    simp only [InstancesRegistry.next, InstancesRegistry.registerRpc, OrderedMap.get?_set] at hget
    split_ifs at hget with hkey hmem
    · cases hget
      rintro hnil
      simp [hnil] at hmem
    · cases hget
      simp
    · exact h path' ids hget
  | unregisterRpc path id => exact h.unexpose path id
  | set | reserveId | releaseId | reserveName | registerName | unregisterName | publishManifest
  | removeManifest =>
    rw [exposePathMap_next rfl]
    exact h

theorem unexposed_next (hpaths : NoEmptyPath s.exposePathMap) (h : Unexposed id s.exposePathMap)
    {a : RegistryAction} (ha : ∀ path, a ≠ .registerRpc path id) :
    Unexposed id (s.next csi a).exposePathMap := by
  cases a with
  | delete id' =>
    rw [InstancesRegistry.next, (delete_store csi s id').2]
    exact h.unexposeAll hpaths id'
  | clear => exact fun path ids hget => nomatch hget
  | registerRpc path id' =>
    have hne : id ≠ id' := by
      rintro rfl
      exact ha path rfl
    intro path' ids hget
    simp only [InstancesRegistry.next, InstancesRegistry.registerRpc, OrderedMap.get?_set] at hget
    have hold : id ∉ (s.exposePathMap.get? path).getD [] := by
      cases hids : s.exposePathMap.get? path with
      | none => simp
      | some ids => exact h path ids hids
    split_ifs at hget
    · cases hget
      exact hold
    · cases hget
      simpa [hne] using hold
    · exact h path' ids hget
  | unregisterRpc path id' => exact h.unexpose path id'
  | set | reserveId | releaseId | reserveName | registerName | unregisterName | publishManifest
  | removeManifest =>
    rw [exposePathMap_next rfl]
    exact h

/-! ## Runs -/

/-- Whatever is removed in a run is exposed by no path until it is registered for one. -/
def RemovedUnexposed (csi : ℕ → ICSI) (as : List RegistryAction) : Prop :=
  ∀ before a after id, before ++ a :: after <+: as → a = .delete id ∨ a = .clear →
    (∀ path, .registerRpc path id ∉ after) →
      Unexposed id ((before ++ a :: after).foldl (InstancesRegistry.next csi) new).exposePathMap

theorem unexposed_foldl (hpaths : NoEmptyPath s.exposePathMap) (h : Unexposed id s.exposePathMap)
    (as : List RegistryAction) (has : ∀ path, .registerRpc path id ∉ as) :
    Unexposed id (as.foldl (InstancesRegistry.next csi) s).exposePathMap := by
  induction as generalizing s with
  | nil => exact h
  | cons a as ih =>
    refine ih (noEmptyPath_next hpaths a) (unexposed_next hpaths h fun path heq => ?_) fun path hmem => ?_
    · exact has path (heq ▸ List.mem_cons_self ..)
    · exact has path (List.mem_cons_of_mem _ hmem)

theorem noEmptyPath_foldl (hpaths : NoEmptyPath s.exposePathMap) (as : List RegistryAction) :
    NoEmptyPath (as.foldl (InstancesRegistry.next csi) s).exposePathMap := by
  induction as generalizing s with
  | nil => exact hpaths
  | cons a as ih => exact ih (noEmptyPath_next hpaths a)

theorem removedUnexposed (csi : ℕ → ICSI) (as : List RegistryAction) : RemovedUnexposed csi as := by
  intro before a after id _ ha hafter
  have hnew : NoEmptyPath new.exposePathMap := fun path ids hget => nomatch hget
  have hbefore : NoEmptyPath (before.foldl (InstancesRegistry.next csi) new).exposePathMap :=
    noEmptyPath_foldl hnew before
  rw [List.foldl_append, List.foldl_cons]
  refine unexposed_foldl (noEmptyPath_next hbefore a) ?_ after hafter
  rcases ha with rfl | rfl
  · rw [InstancesRegistry.next, (delete_store csi _ id).2]
    exact unexposed_unexposeAll hbefore id
  · exact fun path ids hget => nomatch hget

/-- After any run the maps are in step as soon as names and ids are. -/
theorem consistent_iff_namesAgree (csi : ℕ → ICSI) (as : List RegistryAction) :
    let s := as.foldl (InstancesRegistry.next csi) new
    s.Consistent ↔ s.NamesAgree := by
  intro s
  have h : s.Registered csi ∧ s.Reserved ∧ NoEmptyPath s.exposePathMap := by
    apply (System.reachable_foldl as).invariant_ofFun (I := fun s : InstancesRegistry =>
      s.Registered csi ∧ s.Reserved ∧ NoEmptyPath s.exposePathMap)
    · exact ⟨registered_empty rfl rfl rfl, fun _ hid => (by cases hid), fun _ _ h => by cases h⟩
    · exact fun _ a h _ => ⟨h.1.next a, reserved_next h.2.1 a, noEmptyPath_next h.2.2 a⟩
  exact h.1.consistent_iff h.2.1 h.2.2

/-- The store is consistent throughout a run exactly if no name is given where an empty string is in
the way. -/
theorem consistent_iff_keepsNames (csi : ℕ → ICSI) (as : List RegistryAction) :
    System.Always (InstancesRegistry.next csi) Consistent new as ∧ RemovedUnexposed csi as ↔
      System.Meets (InstancesRegistry.next csi) KeepsNames new as := by
  rw [and_iff_left (removedUnexposed csi as)]
  have hinv : (new.Registered csi ∧ new.Reserved) ∧ NoEmptyPath new.exposePathMap :=
    ⟨⟨registered_empty rfl rfl rfl, fun id hid => nomatch hid⟩, fun path ids hget => nomatch hget⟩
  have hnew : new.Consistent :=
    (hinv.1.1.consistent_iff hinv.1.2 hinv.2).mpr Inverse.empty
  refine System.always_iff_meets (A := fun _ => True)
    (I := fun s => (s.Registered csi ∧ s.Reserved) ∧ NoEmptyPath s.exposePathMap)
    (fun s a _ hs hc => ?_) (fun s a _ hs _ _ => ?_) hinv hnew as fun _ _ => trivial
  · obtain ⟨⟨hregistered, hreserved⟩, hpaths⟩ := hs
    rw [(hregistered.next a).consistent_iff (reserved_next hreserved a) (noEmptyPath_next hpaths a)]
    exact namesAgree_next_iff hc.names a
  · obtain ⟨⟨hregistered, hreserved⟩, hpaths⟩ := hs
    exact ⟨⟨hregistered.next a, reserved_next hreserved a⟩, noEmptyPath_next hpaths a⟩

/-- An instance that has the empty name keeps it when it gets another one. -/
theorem emptyName_kept :
    ¬ ∀ (csi : ℕ → ICSI) (as : List RegistryAction),
      (as.foldl (InstancesRegistry.next csi) new).Consistent := by
  intro hall
  have hnames := (hall (fun _ => ⟨"instance", none⟩)
    [.reserveName "" "instance", .reserveName "name" "instance"]).names
  have hempty := (hnames "" "instance").mp (by decide +kernel)
  exact absurd hempty (by decide +kernel)

end InstancesRegistry

end TransformHub.Host.Instances

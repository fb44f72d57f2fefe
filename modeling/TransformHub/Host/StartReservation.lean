import TransformHub.Host.CsiDispatcher
import TransformHub.Host.RegistryInvariant

/-!
# Reservations of a start

What one call of `CSIDispatcher.startRunner` does to the ids and names of the store when it fails
while no controller is registered for it.
-/

namespace TransformHub.Host.Instances

open OrderedMap

/-- The conflicts that `startRunner` finds. -/
inductive StartConflict where
  | idPattern
  | idIsName
  | idTaken
  | nameIsId
  | nameTaken

/-- What fails once the reservations are made. -/
inductive StartFailure where
  /-- the adapter cannot be constructed -/
  | construction
  /-- `init` of the adapter rejects -/
  | initialization
  /-- `dispatch` rejects or gives an exit code, or what follows throws -/
  | dispatch
  /-- the instance exits before it is established; its exit code maps to a result or is thrown -/
  | earlyExit (mapped : Bool)

/-- The failure is one inside the `try`. -/
def StartFailure.released : StartFailure → Bool
  | construction => false
  | initialization => false
  | dispatch => true
  | earlyExit _ => true

namespace InstancesStore

section

variable (store : InstancesStore) (instanceId : String) (instanceName : Option String)

/-- The reservations of `startRunner`: what they leave, and the conflict that ends the call. -/
def reserveStart : InstancesStore × Option StartConflict :=
  if !isChannelInstanceId instanceId then (store, some .idPattern)
  else if store.hasName instanceId then (store, some .idIsName)
  else
    match store.reserveId instanceId with
    | none => (store, some .idTaken)
    | some reserved =>
      match truthy instanceName with
      | none => (reserved, none)
      | some name =>
        if reserved.has name || reserved.hasReservedId name then (reserved, some .nameIsId)
        else
          match reserved.reserveName instanceId name with
          | none => (reserved, some .nameTaken)
          | some named => (named, none)

/-- `catch` of `startRunner`. -/
def releaseStart : InstancesStore :=
  match truthy instanceName with
  | none => store.releaseId instanceId
  | some name => (store.releaseId instanceId).unregisterName instanceId name

/-- The end of a call that returns the result of an early exit. -/
def releaseExited : InstancesStore :=
  match truthy instanceName with
  | none => store.releaseId instanceId
  | some name => (store.unregisterName instanceId name).releaseId instanceId

/-- A call of `startRunner` that fails, at the latest with `failure`. -/
def failStart (failure : StartFailure) : InstancesStore :=
  match store.reserveStart instanceId instanceName with
  | (left, some _) => left
  | (reserved, none) =>
    match failure with
    | .construction => reserved
    | .initialization => reserved
    | .dispatch => reserved.releaseStart instanceId instanceName
    | .earlyExit false => reserved.releaseStart instanceId instanceName
    | .earlyExit true => reserved.releaseExited instanceId instanceName

/-- The same ids are reserved, and the same names stand for the same ids. -/
structure SameReservations (before after : InstancesStore) : Prop where
  reservedIds : ∀ id, after.hasReservedId id = before.hasReservedId id
  nameMap : ∀ name, after.nameMap.get? name = before.nameMap.get? name
  nameReverse : ∀ id, after.nameReverse.get? id = before.nameReverse.get? id

/-- The id is refused, so that the call reserves nothing. -/
def RefusesId : Prop :=
  isChannelInstanceId instanceId = false ∨ store.hasName instanceId = true ∨
    store.has instanceId = true ∨ store.hasReservedId instanceId = true

/-- The name, if there is one, is neither an id nor known, and the id has had none. -/
def NameUnknown : Prop :=
  ∀ name, truthy instanceName = some name →
    store.has name = false ∧ store.hasReservedId name = false ∧ name ≠ instanceId ∧
      store.nameMap.get? name = none ∧ store.nameReverse.get? instanceId = none

end

variable {store : InstancesStore} {instanceId : String} {instanceName : Option String}

theorem SameReservations.refl (store : InstancesStore) : store.SameReservations store :=
  ⟨fun _ => rfl, fun _ => rfl, fun _ => rfl⟩

def withReserved (store : InstancesStore) (instanceId : String) : InstancesStore :=
  { store with reservedIds := instanceId :: store.reservedIds }

theorem hasReservedId_withReserved (id : String) :
    (store.withReserved instanceId).hasReservedId id =
      (decide (id = instanceId) || store.hasReservedId id) := by
  simp [withReserved, hasReservedId]

theorem hasReservedId_releaseId (id : String) :
    (store.releaseId instanceId).hasReservedId id =
      (decide (id ≠ instanceId) && store.hasReservedId id) := by
  rw [Bool.eq_iff_iff]
  simp [releaseId, hasReservedId, and_comm]

theorem reserveStart_of_free (instanceName : Option String) (h : ¬ store.RefusesId instanceId) :
    store.reserveStart instanceId instanceName =
      match truthy instanceName with
      | none => (store.withReserved instanceId, none)
      | some name =>
        if (store.withReserved instanceId).has name ||
            (store.withReserved instanceId).hasReservedId name then
          (store.withReserved instanceId, some .nameIsId)
        else
          match (store.withReserved instanceId).reserveName instanceId name with
          | none => (store.withReserved instanceId, some .nameTaken)
          | some named => (named, none) := by
  simp only [RefusesId, not_or, Bool.not_eq_false, Bool.not_eq_true] at h
  obtain ⟨hpattern, hname, hlive, hreserved⟩ := h
  have hid : store.reserveId instanceId = some (store.withReserved instanceId) := by
    simp [reserveId, hlive, hreserved, withReserved]
  unfold reserveStart
  simp only [hpattern, hname, hid]
  rfl

theorem reserveStart_of_refused (instanceName : Option String) (h : store.RefusesId instanceId) :
    ∃ conflict, store.reserveStart instanceId instanceName = (store, some conflict) := by
  unfold reserveStart
  split_ifs with hpattern hname
  · exact ⟨_, rfl⟩
  · exact ⟨_, rfl⟩
  · have htaken : store.has instanceId = true ∨ store.hasReservedId instanceId = true := by
      rcases h with hpattern' | hname' | htaken
      · exact absurd hpattern' (by simpa using hpattern)
      · exact absurd hname' hname
      · exact htaken
    have hid : store.reserveId instanceId = none := by
      unfold reserveId
      rw [if_pos (by simpa using htaken)]
    rw [hid]
    exact ⟨_, rfl⟩

theorem not_same_of_reserved {after : InstancesStore} (h : ¬ store.RefusesId instanceId)
    (hafter : after.hasReservedId instanceId = true) : ¬ store.SameReservations after := by
  intro hsame
  have hbefore := hsame.reservedIds instanceId
  rw [hafter] at hbefore
  exact h (.inr (.inr (.inr hbefore.symm)))

theorem hasReservedId_setName (id name : String) :
    (store.setName instanceId name).hasReservedId id = store.hasReservedId id :=
  congrArg (List.contains · id) sameIds_setName.reservedIds

/-! ## Releasing a name -/

theorem nameMap_setName_self (name : String) :
    (store.setName instanceId name).nameMap.get? name = some instanceId := by
  unfold setName
  exact get?_set_self _ _ _

theorem unregisterName_setName (hid : instanceId ≠ "") (name : String) :
    (store.setName instanceId name).unregisterName instanceId name =
      { store.setName instanceId name with
        nameMap := (store.setName instanceId name).nameMap.delete name
        nameReverse := (store.setName instanceId name).nameReverse.delete instanceId } := by
  unfold unregisterName
  rw [if_pos (truthy_eq_some.mpr ⟨nameMap_setName_self name, hid⟩)]

theorem setName_of_unknown (store : InstancesStore) {name : String}
    (hreverse : store.nameReverse.get? instanceId = none) :
    store.setName instanceId name =
      { store with
        nameMap := store.nameMap.set name instanceId
        nameReverse := store.nameReverse.set instanceId name } := by
  unfold setName
  rw [hreverse]
  rfl

theorem releases_setName (store : InstancesStore) (hid : instanceId ≠ "") {name : String}
    (hname : truthy instanceName = some name) :
    let released := { store.setName instanceId name with
      reservedIds := (store.setName instanceId name).reservedIds.filter (· ≠ instanceId)
      nameMap := (store.setName instanceId name).nameMap.delete name
      nameReverse := (store.setName instanceId name).nameReverse.delete instanceId }
    (store.setName instanceId name).releaseStart instanceId instanceName = released ∧
      (store.setName instanceId name).releaseExited instanceId instanceName = released := by
  constructor
  · unfold releaseStart
    rw [hname]
    have hmapped : ((store.setName instanceId name).releaseId instanceId).nameMap.get? name =
        some instanceId := nameMap_setName_self name
    simp only [unregisterName]
    rw [if_pos (truthy_eq_some.mpr ⟨hmapped, hid⟩)]
    rfl
  · unfold releaseExited
    rw [hname]
    simp only
    rw [unregisterName_setName hid]
    rfl

/-- A call that has reserved a name and releases it gives everything back exactly if the name was
unknown and the id had none. -/
theorem sameReservations_released {name : String} (hfree : store.hasReservedId instanceId = false) :
    let named := (store.withReserved instanceId).setName instanceId name
    store.SameReservations { named with
        reservedIds := named.reservedIds.filter (· ≠ instanceId)
        nameMap := named.nameMap.delete name
        nameReverse := named.nameReverse.delete instanceId } ↔
      store.nameMap.get? name = none ∧ store.nameReverse.get? instanceId = none := by
  intro named
  constructor
  · intro hsame
    have hmap := hsame.nameMap name
    have hreverse := hsame.nameReverse instanceId
    rw [get?_delete_self] at hmap hreverse
    exact ⟨hmap.symm, hreverse.symm⟩
  · rintro ⟨hmap, hreverse⟩
    have hnamed : named = _ := setName_of_unknown (store.withReserved instanceId) hreverse
    refine ⟨fun id => ?_, fun other => ?_, fun id => ?_⟩
    · show (named.releaseId instanceId).hasReservedId id = _
      rw [hasReservedId_releaseId, hasReservedId_setName, hasReservedId_withReserved]
      by_cases heq : id = instanceId
      · subst heq
        simp [hfree]
      · simp [heq]
    · rw [hnamed]
      by_cases heq : name = other
      · subst heq
        simp [hmap]
      · rw [get?_delete_of_ne _ heq, get?_set_of_ne _ heq]
        rfl
    · rw [hnamed]
      by_cases heq : instanceId = id
      · subst heq
        simp [hreverse]
      · rw [get?_delete_of_ne _ heq, get?_set_of_ne _ heq]
        rfl

theorem sameReservations_releaseId (hfree : store.hasReservedId instanceId = false) :
    store.SameReservations ((store.withReserved instanceId).releaseId instanceId) := by
  refine ⟨fun id => ?_, fun _ => rfl, fun _ => rfl⟩
  rw [hasReservedId_releaseId, hasReservedId_withReserved]
  by_cases heq : id = instanceId
  · subst heq
    simp [hfree]
  · simp [heq]

/-! ## The calls -/

theorem ne_empty_of_channelId (h : isChannelInstanceId instanceId = true) : instanceId ≠ "" := by
  rintro rfl
  exact absurd h (by decide)

/-- The reserved store gives everything back exactly if the failure is inside the `try` and what it
releases does. -/
theorem failStart_reserved {reserved : InstancesStore} {failure : StartFailure}
    (hrefused : ¬ store.RefusesId instanceId)
    (hstart : store.reserveStart instanceId instanceName = (reserved, none))
    (hid : reserved.hasReservedId instanceId = true) {Given : Prop}
    (hcatch : store.SameReservations (reserved.releaseStart instanceId instanceName) ↔ Given)
    (hexited : store.SameReservations (reserved.releaseExited instanceId instanceName) ↔ Given) :
    store.SameReservations (store.failStart instanceId instanceName failure) ↔
      failure.released = true ∧ Given := by
  unfold failStart
  rw [hstart]
  cases failure with
  | construction => simpa [StartFailure.released] using not_same_of_reserved hrefused hid
  | initialization => simpa [StartFailure.released] using not_same_of_reserved hrefused hid
  | dispatch => simpa [StartFailure.released] using hcatch
  | earlyExit mapped =>
    cases mapped with
    | false => simpa [StartFailure.released] using hcatch
    | true => simpa [StartFailure.released] using hexited

theorem nameUnknown_iff {name : String} (hname : truthy instanceName = some name) :
    store.NameUnknown instanceId instanceName ↔
      store.has name = false ∧ store.hasReservedId name = false ∧ name ≠ instanceId ∧
        store.nameMap.get? name = none ∧ store.nameReverse.get? instanceId = none := by
  constructor
  · intro hunknown
    exact hunknown name hname
  · intro hunknown other hother
    rw [hname] at hother
    cases hother
    exact hunknown

theorem restored_iff_of_name {failure : StartFailure} (hrefused : ¬ store.RefusesId instanceId)
    (hid : instanceId ≠ "") {name : String} (hname : truthy instanceName = some name) :
    store.SameReservations (store.failStart instanceId instanceName failure) ↔
      failure.released = true ∧ store.NameUnknown instanceId instanceName := by
  have hstart := reserveStart_of_free instanceName hrefused
  have hself : (store.withReserved instanceId).hasReservedId instanceId = true := by
    rw [hasReservedId_withReserved]
    simp
  have hfree : store.hasReservedId instanceId = false :=
    Bool.eq_false_iff.mpr fun h => hrefused (.inr (.inr (.inr h)))
  -- a conflict of the name leaves the id reserved
  have hconflict : ∀ conflict,
      store.reserveStart instanceId instanceName =
        (store.withReserved instanceId, some conflict) →
      ¬ store.SameReservations (store.failStart instanceId instanceName failure) := by
    intro conflict hleft
    unfold failStart
    rw [hleft]
    exact not_same_of_reserved hrefused hself
  rw [hname] at hstart
  rw [nameUnknown_iff hname]
  simp only at hstart
  split_ifs at hstart with htaken
  · refine iff_of_false (hconflict _ hstart) ?_
    rintro ⟨-, hhas, hreserved, hne, -, -⟩
    have hhas' : (store.withReserved instanceId).has name = false := hhas
    rw [hasReservedId_withReserved] at htaken
    simp [hhas', hreserved, hne] at htaken
  · simp only [Bool.or_eq_true, not_or, Bool.not_eq_true, hasReservedId_withReserved,
      decide_eq_false_iff_not] at htaken
    obtain ⟨hhas, hne, hreserved⟩ := htaken
    have hnamed : store.reserveStart instanceId instanceName =
          ((store.withReserved instanceId).setName instanceId name, none) →
        (store.SameReservations (store.failStart instanceId instanceName failure) ↔
          failure.released = true ∧
            store.nameMap.get? name = none ∧ store.nameReverse.get? instanceId = none) := by
      intro hreserve
      obtain ⟨hcatch, hexited⟩ :=
        releases_setName (store.withReserved instanceId) hid hname
      refine failStart_reserved hrefused hreserve ?_ ?_ ?_
      · rw [hasReservedId_setName]
        exact hself
      · rw [hcatch]
        exact sameReservations_released hfree
      · rw [hexited]
        exact sameReservations_released hfree
    have hassoc : (store.has name = false ∧ store.hasReservedId name = false ∧ name ≠ instanceId ∧
        store.nameMap.get? name = none ∧ store.nameReverse.get? instanceId = none) ↔
          store.nameMap.get? name = none ∧ store.nameReverse.get? instanceId = none := by
      constructor
      · intro hunknown
        exact hunknown.2.2.2
      · intro hget
        exact ⟨hhas, hreserved, hne, hget⟩
    rw [hassoc]
    unfold reserveName at hstart
    cases hmap : truthy ((store.withReserved instanceId).nameMap.get? name) with
    | none =>
      rw [hmap] at hstart
      exact hnamed hstart
    | some existing =>
      rw [hmap] at hstart
      simp only at hstart
      by_cases hsame : existing = instanceId
      · rw [if_pos hsame] at hstart
        exact hnamed hstart
      · rw [if_neg hsame] at hstart
        refine iff_of_false (hconflict _ hstart) ?_
        rintro ⟨-, hnone, -⟩
        have hget : store.nameMap.get? name = some existing := (truthy_eq_some.mp hmap).1
        rw [hnone] at hget
        cases hget

/-- A call that fails before its controller is registered gives back what it took exactly when it
refuses the id, or fails inside the `try` with no name or a new one. -/
theorem reservations_restored_iff (store : InstancesStore) (instanceId : String)
    (instanceName : Option String)
    (failure : StartFailure) :
    store.SameReservations (store.failStart instanceId instanceName failure) ↔
      store.RefusesId instanceId ∨
        (failure.released = true ∧ store.NameUnknown instanceId instanceName) := by
  by_cases hrefused : store.RefusesId instanceId
  · obtain ⟨conflict, hstart⟩ := reserveStart_of_refused instanceName hrefused
    refine iff_of_true ?_ (.inl hrefused)
    unfold failStart
    rw [hstart]
    exact .refl store
  rw [or_iff_right hrefused]
  cases hname : truthy instanceName with
  | none =>
    have hstart := reserveStart_of_free instanceName hrefused
    rw [hname] at hstart
    have hfree : store.hasReservedId instanceId = false :=
      Bool.eq_false_iff.mpr fun h => hrefused (.inr (.inr (.inr h)))
    have hunknown : store.NameUnknown instanceId instanceName := by
      intro name hsome
      rw [hname] at hsome
      cases hsome
    rw [iff_true_intro hunknown]
    refine failStart_reserved hrefused hstart ?_ (iff_of_true ?_ trivial) (iff_of_true ?_ trivial)
    · rw [hasReservedId_withReserved]
      simp
    · unfold releaseStart
      rw [hname]
      exact sameReservations_releaseId hfree
    · unfold releaseExited
      rw [hname]
      exact sameReservations_releaseId hfree
  | some name =>
    refine restored_iff_of_name hrefused (ne_empty_of_channelId ?_) hname
    by_contra hpattern
    exact hrefused (.inl (Bool.eq_false_iff.mpr hpattern))

/-- The adapter of instance `a` cannot be initialized: the id stays reserved. -/
theorem initialization_leaks :
    new.hasReservedId "a" = false ∧
      (new.failStart "a" none .initialization).hasReservedId "a" = true ∧
        ¬ new.SameReservations (new.failStart "a" none .initialization) := by
  have hleaks : (new.failStart "a" none .initialization).hasReservedId "a" = true := by
    decide +kernel
  refine ⟨rfl, hleaks, fun hsame => ?_⟩
  have hbefore := hsame.reservedIds "a"
  rw [hleaks] at hbefore
  exact absurd hbefore (by decide)

end InstancesStore

/-! ## The calls of a Host -/

end TransformHub.Host.Instances

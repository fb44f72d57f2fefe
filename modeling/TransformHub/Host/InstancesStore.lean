import TransformHub.Lib.OrderedMap

/-!
# Store of instances

`InstancesStore`: the controllers by id, the ids that are reserved for instances being started, and
the names.
-/

namespace TransformHub.Host.Instances

/-- `InstancesStore`. A controller is known by a number of its own, as ids are used again. -/
structure InstancesStore where
  controllers : OrderedMap String ℕ
  reservedIds : List String
  /-- the id that a name stands for -/
  nameMap : OrderedMap String String
  nameReverse : OrderedMap String String

/-- What a condition takes for a string: the empty one is none. -/
def truthy (s : Option String) : Option String := s.filter (· ≠ "")

namespace InstancesStore

def new : InstancesStore := ⟨.empty, [], .empty, .empty⟩

section

variable (store : InstancesStore) (instanceId instanceName : String)

def get? : Option ℕ := store.controllers.get? instanceId

def has : Bool := store.controllers.has instanceId

def hasReservedId : Bool := store.reservedIds.contains instanceId

def hasName : Bool := store.nameMap.has instanceName

def releaseId : InstancesStore :=
  { store with reservedIds := store.reservedIds.filter (· ≠ instanceId) }

def reserveId : Option InstancesStore :=
  if store.has instanceId || store.hasReservedId instanceId then none
  else some { store with reservedIds := instanceId :: store.reservedIds }

def clearNameForInstance : InstancesStore :=
  match truthy (store.nameReverse.get? instanceId) with
  | none => store
  | some currentName =>
    { store with
      nameReverse := store.nameReverse.delete instanceId
      nameMap :=
        if store.nameMap.get? currentName = some instanceId then store.nameMap.delete currentName
        else store.nameMap }

/-- The names when a name stands for an id. -/
def setName : InstancesStore :=
  let store :=
    match truthy (store.nameReverse.get? instanceId) with
    | some currentName =>
      if currentName = instanceName then store else store.clearNameForInstance instanceId
    | none => store
  { store with
    nameMap := store.nameMap.set instanceName instanceId
    nameReverse := store.nameReverse.set instanceId instanceName }

def reserveName : Option InstancesStore :=
  match truthy (store.nameMap.get? instanceName) with
  | some existing => if existing = instanceId then some (store.setName instanceId instanceName) else none
  | none => some (store.setName instanceId instanceName)

def registerName : InstancesStore :=
  if store.has instanceId then (store.reserveName instanceId instanceName).getD store else store

def unregisterName : InstancesStore :=
  if truthy (store.nameMap.get? instanceName) = some instanceId then
    { store with
      nameMap := store.nameMap.delete instanceName
      nameReverse := store.nameReverse.delete instanceId }
  else store

def set (controller : ℕ) : InstancesStore :=
  let store := { store with controllers := store.controllers.set instanceId controller }.releaseId
    instanceId
  match truthy (store.nameReverse.get? instanceId) with
  | some name => { store with nameMap := store.nameMap.set name instanceId }
  | none => store

def delete : InstancesStore :=
  let store := (store.releaseId instanceId).clearNameForInstance instanceId
  { store with controllers := store.controllers.delete instanceId }

end

/-! ## Controllers -/

section Controllers

variable (store : InstancesStore) (instanceId instanceName : String)

@[simp] theorem controllers_releaseId : (store.releaseId instanceId).controllers = store.controllers :=
  rfl

@[simp] theorem controllers_clearNameForInstance :
    (store.clearNameForInstance instanceId).controllers = store.controllers := by
  unfold clearNameForInstance
  split <;> rfl

@[simp] theorem controllers_setName :
    (store.setName instanceId instanceName).controllers = store.controllers := by
  unfold setName
  split
  · split_ifs
    · rfl
    · exact store.controllers_clearNameForInstance instanceId
  · rfl

variable {store instanceId instanceName} in
theorem controllers_reserveName {store' : InstancesStore}
    (h : store.reserveName instanceId instanceName = some store') :
    store'.controllers = store.controllers := by
  unfold reserveName at h
  split at h
  · split_ifs at h
    cases h
    exact store.controllers_setName instanceId instanceName
  · cases h
    exact store.controllers_setName instanceId instanceName

variable {store instanceId} in
theorem controllers_reserveId {store' : InstancesStore}
    (h : store.reserveId instanceId = some store') : store'.controllers = store.controllers := by
  unfold reserveId at h
  split_ifs at h
  cases h
  rfl

@[simp] theorem controllers_registerName :
    (store.registerName instanceId instanceName).controllers = store.controllers := by
  unfold registerName
  split_ifs
  · cases hreserve : store.reserveName instanceId instanceName with
    | none => rfl
    | some store' => exact controllers_reserveName hreserve
  · rfl

@[simp] theorem controllers_unregisterName :
    (store.unregisterName instanceId instanceName).controllers = store.controllers := by
  unfold unregisterName
  split_ifs <;> rfl

@[simp] theorem controllers_set (controller : ℕ) :
    (store.set instanceId controller).controllers = store.controllers.set instanceId controller := by
  unfold set
  dsimp only
  split <;> rfl

@[simp] theorem controllers_delete :
    (store.delete instanceId).controllers = store.controllers.delete instanceId := by
  unfold delete
  simp

end Controllers

end InstancesStore

end TransformHub.Host.Instances

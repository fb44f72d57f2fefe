import TransformHub.Host.StartReservation

/-!
# Ids and names of instances

An instance is found by a token that is an id or a name, ids first.
-/

namespace TransformHub.Host.Instances

namespace InstancesStore

section

variable (store : InstancesStore)

def getByName (instanceName : String) : Option ℕ :=
  match truthy (store.nameMap.get? instanceName) with
  | none => none
  | some id => store.get? id

def getByNameOrId (token : String) : Option ℕ :=
  match store.get? token with
  | some byId => some byId
  | none => store.getByName token

def Knows (id : String) : Prop := store.has id = true ∨ store.hasReservedId id = true

/-- No registered name is the id of another instance. -/
def NamesApart : Prop :=
  ∀ name owner, store.nameMap.get? name = some owner → store.Knows name → name = owner

/-- A token that is the name of an instance is resolved to no other instance. -/
def ResolvesNames : Prop :=
  ∀ name owner controller, store.nameMap.get? name = some owner →
    store.getByNameOrId name = some controller → store.get? owner = some controller

/-- No empty string stands for an instance. -/
def NoBlank : Prop := ∀ name owner, store.nameMap.get? name = some owner → name ≠ "" ∧ owner ≠ ""

end

variable {store store' : InstancesStore} {instanceId instanceName : String}

theorem NamesApart.resolves (h : store.NamesApart) : store.ResolvesNames := by
  intro name owner controller hname hresolve
  unfold getByNameOrId at hresolve
  cases hlive : store.get? name with
  | some byId =>
    rw [hlive] at hresolve
    cases hresolve
    have hhas : store.has name = true := Option.isSome_iff_exists.mpr ⟨_, hlive⟩
    rw [← h name owner hname (.inl hhas)]
    exact hlive
  | none =>
    rw [hlive] at hresolve
    simp only [getByName] at hresolve
    cases hown : truthy (store.nameMap.get? name) with
    | none =>
      rw [hown] at hresolve
      cases hresolve
    | some id =>
      rw [hown] at hresolve
      have hid : store.nameMap.get? name = some id := (truthy_eq_some.mp hown).1
      rw [hname] at hid
      cases hid
      exact hresolve

/-! ## What the operations add -/

/-- Nothing is added: no name, and no id. -/
structure Within (store store' : InstancesStore) : Prop where
  names : ∀ name owner, store'.nameMap.get? name = some owner → store.nameMap.get? name = some owner
  ids : ∀ id, store'.Knows id → store.Knows id

theorem Within.trans {store'' : InstancesStore} (h : store.Within store')
    (h' : store'.Within store'') : store.Within store'' :=
  ⟨fun name owner hname => h.names name owner (h'.names name owner hname),
    fun id hid => h.ids id (h'.ids id hid)⟩

theorem NamesApart.within (h : store.NamesApart) (hwithin : store.Within store') :
    store'.NamesApart :=
  fun name owner hname hid => h name owner (hwithin.names name owner hname) (hwithin.ids name hid)

theorem NoBlank.within (h : store.NoBlank) (hwithin : store.Within store') : store'.NoBlank :=
  fun name owner hname => h name owner (hwithin.names name owner hname)

theorem SameIds.knows (h : store.SameIds store') (id : String) :
    store'.Knows id ↔ store.Knows id := by
  unfold Knows has hasReservedId
  rw [h.controllers, h.reservedIds]

theorem within_releaseId : store.Within (store.releaseId instanceId) := by
  refine ⟨fun _ _ h => h, fun id hid => hid.imp_right fun hreserved => ?_⟩
  rw [hasReservedId_releaseId, Bool.and_eq_true] at hreserved
  exact hreserved.2

theorem within_clearNameForInstance : store.Within (store.clearNameForInstance instanceId) := by
  refine ⟨fun name owner hname => ?_, fun id hid => (sameIds_clearNameForInstance.knows id).mp hid⟩
  unfold clearNameForInstance at hname
  split at hname
  · exact hname
  · simp only at hname
    split_ifs at hname
    · rw [OrderedMap.get?_delete] at hname
      split_ifs at hname
      exact hname
    · exact hname

theorem within_unregisterName : store.Within (store.unregisterName instanceId instanceName) := by
  refine ⟨fun name owner hname => ?_, fun id hid => (sameIds_unregisterName.knows id).mp hid⟩
  unfold unregisterName at hname
  split_ifs at hname
  · rw [OrderedMap.get?_delete] at hname
    split_ifs at hname
    exact hname
  · exact hname

theorem within_releaseStart (name : Option String) :
    store.Within (store.releaseStart instanceId name) := by
  unfold releaseStart
  split
  · exact within_releaseId
  · exact within_releaseId.trans within_unregisterName

theorem within_releaseExited (name : Option String) :
    store.Within (store.releaseExited instanceId name) := by
  unfold releaseExited
  split
  · exact within_releaseId
  · exact within_unregisterName.trans within_releaseId

theorem within_delete : store.Within (store.delete instanceId) := by
  have hcleared : store.Within ((store.releaseId instanceId).clearNameForInstance instanceId) :=
    within_releaseId.trans within_clearNameForInstance
  refine ⟨fun name owner hname => hcleared.names name owner hname, fun id hid => ?_⟩
  refine hcleared.ids id (hid.imp_left fun hlive => ?_)
  unfold has at hlive ⊢
  rw [controllers_delete, OrderedMap.has, OrderedMap.get?_delete] at hlive
  simp only [controllers_clearNameForInstance, controllers_releaseId]
  split_ifs at hlive
  · cases hlive
  · exact hlive

theorem nameMap_setName {name owner : String}
    (h : (store.setName instanceId instanceName).nameMap.get? name = some owner) :
    (name = instanceName ∧ owner = instanceId) ∨ store.nameMap.get? name = some owner := by
  unfold setName at h
  simp only at h
  rw [OrderedMap.get?_set] at h
  split_ifs at h with hname
  · cases h
    exact .inl ⟨hname.symm, rfl⟩
  · apply Or.inr
    split at h
    · split_ifs at h
      · exact h
      · exact within_clearNameForInstance.names name owner h
    · exact h

theorem NoBlank.setName (h : store.NoBlank) (hname : instanceName ≠ "") (hid : instanceId ≠ "") :
    (store.setName instanceId instanceName).NoBlank := by
  intro name owner hget
  rcases nameMap_setName hget with ⟨rfl, rfl⟩ | hget
  · exact ⟨hname, hid⟩
  · exact h name owner hget

theorem NamesApart.setName_iff (h : store.NamesApart) :
    (store.setName instanceId instanceName).NamesApart ↔
      (store.Knows instanceName → instanceName = instanceId) := by
  constructor
  · intro hset hknown
    exact hset instanceName instanceId (nameMap_setName_self instanceName)
      ((sameIds_setName.knows instanceName).mpr hknown)
  · intro hfree name owner hget hknown
    rw [sameIds_setName.knows] at hknown
    rcases nameMap_setName hget with ⟨rfl, rfl⟩ | hget
    · exact hfree hknown
    · exact h name owner hget hknown

theorem reserveName_cases (store : InstancesStore) (instanceId instanceName : String) :
    ((∃ other, truthy (store.nameMap.get? instanceName) = some other ∧ other ≠ instanceId) ∧
        store.reserveName instanceId instanceName = none) ∨
      (∀ other, truthy (store.nameMap.get? instanceName) = some other → other = instanceId) ∧
        store.reserveName instanceId instanceName = some (store.setName instanceId instanceName) := by
  unfold reserveName
  cases hname : truthy (store.nameMap.get? instanceName) with
  | none => exact .inr ⟨nofun, rfl⟩
  | some existing =>
    by_cases hsame : existing = instanceId
    · refine .inr ⟨fun other h => ?_, if_pos hsame⟩
      cases h
      exact hsame
    · exact .inl ⟨⟨existing, rfl, hsame⟩, if_neg hsame⟩

/-! ## Reservations of a start -/

theorem NamesAgree.noBlankReverse (hagree : store.NamesAgree) (hblank : store.NoBlank)
    (id : String) :
    store.nameReverse.get? id ≠ some "" := by
  intro hget
  exact (hblank "" id ((hagree "" id).mpr hget)).1 rfl

structure NamesGood (store : InstancesStore) : Prop where
  agree : store.NamesAgree
  noBlank : store.NoBlank

theorem NamesGood.reserveName (h : store.NamesGood) (hname : instanceName ≠ "")
    (hid : instanceId ≠ "") {named : InstancesStore}
    (hnamed : store.reserveName instanceId instanceName = some named) :
    named = store.setName instanceId instanceName ∧ named.NamesGood := by
  have hset : named = store.setName instanceId instanceName := by
    rcases store.reserveName_cases instanceId instanceName with ⟨-, hnone⟩ | ⟨-, hsome⟩
    · rw [hnone] at hnamed
      cases hnamed
    · rw [hsome] at hnamed
      cases hnamed
      rfl
  refine ⟨hset, ?_, hset ▸ h.noBlank.setName hname hid⟩
  have hagree : ((store.reserveName instanceId instanceName).getD store).NamesAgree := by
    refine h.agree.reserveName_iff.mpr (.inr ⟨fun hempty => ?_, fun hempty => ?_⟩)
    · exact absurd rfl (h.noBlank instanceName "" hempty).2
    · exact absurd hempty (h.agree.noBlankReverse h.noBlank instanceId)
  rwa [hnamed] at hagree

theorem withReserved_knows (id : String) :
    (store.withReserved instanceId).Knows id ↔ id = instanceId ∨ store.Knows id := by
  have hlive : (store.withReserved instanceId).has id = store.has id := rfl
  unfold Knows
  rw [hasReservedId_withReserved, hlive, Bool.or_eq_true, decide_eq_true_eq]
  exact or_left_comm

theorem NamesApart.withReserved (h : store.NamesApart) (hname : store.hasName instanceId = false) :
    (store.withReserved instanceId).NamesApart := by
  intro name owner hget hknown
  rcases (withReserved_knows name).mp hknown with rfl | hknown
  · have hhas : store.hasName name = true := Option.isSome_iff_exists.mpr ⟨owner, hget⟩
    rw [hname] at hhas
    cases hhas
  · exact h name owner hget hknown

theorem reserveStart_apart (instanceId : String) (hgood : store.NamesGood)
    (hapart : store.NamesApart)
    (name : Option String) :
    (store.reserveStart instanceId name).1.NamesGood ∧
      (store.reserveStart instanceId name).1.NamesApart := by
  by_cases hrefused : store.RefusesId instanceId
  · obtain ⟨conflict, hstart⟩ := reserveStart_of_refused name hrefused
    rw [hstart]
    exact ⟨hgood, hapart⟩
  have hfree : store.hasName instanceId = false :=
    Bool.eq_false_iff.mpr fun hname => hrefused (.inr (.inl hname))
  have hid : instanceId ≠ "" := by
    apply ne_empty_of_channelId
    by_contra hpattern
    exact hrefused (.inl (Bool.eq_false_iff.mpr hpattern))
  have hreserved : (store.withReserved instanceId).NamesGood := ⟨hgood.agree, hgood.noBlank⟩
  have hreservedApart := hapart.withReserved hfree
  rw [reserveStart_of_free _ hrefused]
  cases hname : truthy name with
  | none => exact ⟨hreserved, hreservedApart⟩
  | some given =>
    have hgiven : given ≠ "" := (truthy_eq_some.mp hname).2
    simp only
    split_ifs with htaken
    · exact ⟨hreserved, hreservedApart⟩
    · cases hnamed : (store.withReserved instanceId).reserveName instanceId given with
      | none => exact ⟨hreserved, hreservedApart⟩
      | some named =>
        obtain ⟨hset, hgoodNamed⟩ := hreserved.reserveName hgiven hid hnamed
        refine ⟨hgoodNamed, ?_⟩
        show named.NamesApart
        rw [hset, hreservedApart.setName_iff]
        intro hknown
        exact absurd (by simpa [Knows] using hknown) htaken

/-! ## The controller of a start -/

theorem set_of_agree (hagree : store.NamesAgree) (controller : ℕ) (name : String) :
    (store.set instanceId controller).nameMap.get? name = store.nameMap.get? name := by
  unfold set
  simp only
  split
  · rename_i current hcurrent
    have hback : store.nameMap.get? current = some instanceId :=
      (hagree current instanceId).mpr (truthy_eq_some.mp hcurrent).1
    show (store.nameMap.set current instanceId).get? name = _
    rw [OrderedMap.get?_set]
    split_ifs with hname
    · rw [← hname, hback]
    · rfl
  · rfl

theorem set_knows (controller : ℕ) (id : String) :
    (store.set instanceId controller).Knows id ↔ id = instanceId ∨ store.Knows id := by
  have hreserved : (store.set instanceId controller).hasReservedId id =
      (store.releaseId instanceId).hasReservedId id := by
    unfold set
    simp only
    split <;> rfl
  unfold Knows
  rw [hreserved, hasReservedId_releaseId]
  unfold has
  rw [controllers_set, OrderedMap.has, OrderedMap.get?_set]
  by_cases hid : id = instanceId
  · subst hid
    simp
  · have hne : instanceId ≠ id := fun heq => hid heq.symm
    simp [hid, hne, OrderedMap.has]

/-- The names stay apart from the ids when a controller is stored exactly if its id is not the name
of another instance. -/
theorem NamesApart.set_iff (h : store.NamesApart) (hagree : store.NamesAgree) (controller : ℕ) :
    (store.set instanceId controller).NamesApart ↔
      ∀ owner, store.nameMap.get? instanceId = some owner → owner = instanceId := by
  constructor
  · intro hset owner hget
    rw [← set_of_agree hagree controller] at hget
    exact (hset instanceId owner hget ((set_knows controller instanceId).mpr (.inl rfl))).symm
  · intro hfree name owner hget hknown
    rw [set_of_agree hagree] at hget
    rcases (set_knows controller name).mp hknown with rfl | hknown
    · exact (hfree owner hget).symm
    · exact h name owner hget hknown

theorem NamesGood.set (h : store.NamesGood) (controller : ℕ) :
    (store.set instanceId controller).NamesGood := by
  refine ⟨h.agree.set instanceId controller, fun name owner hget => ?_⟩
  rw [set_of_agree h.agree] at hget
  exact h.noBlank name owner hget

end InstancesStore

/-! ## Runs -/

structure NamedController where
  id : String
  instanceName : Option String

/-- A call of `startRunner` whose reservations are made. -/
structure NamedStart where
  id : String
  instanceName : Option String
  stage : StartStage

structure NamesState where
  store : InstancesStore
  controllers : List NamedController
  starts : List NamedStart

inductive NamesAction where
  /-- `startRunner`, up to `init` of the adapter -/
  | startRunner (instanceId : String) (instanceName : Option String)
  | initialized (k : ℕ)
  /-- `createCSIController`, once the adapter has dispatched the instance -/
  | dispatched (k : ℕ)
  /-- a call that waits inside the `try` throws -/
  | startFails (k : ℕ)
  /-- the instance of a call exits before it is established -/
  | exited (k : ℕ)
  /-- the handler of `established`; `id` is the one that the `PING` names -/
  | established (id : String)
  /-- `handleHandshake`: the controller takes the name that the `PING` reports -/
  | handshake (ref : ℕ) (instanceName : Option String)
  /-- the handler of `end` of the dispatcher -/
  | ended (ref : ℕ)
  /-- `cleanupRequiredStartupInstance` -/
  | cleanup (id : String)
  /-- the Host is cleaned up -/
  | clear

namespace NamesState

def new : NamesState := ⟨.new, [], []⟩

variable (s : NamesState)

def startAt (k : ℕ) (stages : List StartStage) : Option NamedStart :=
  (s.starts[k]?).filter fun start => stages.contains start.stage

def setStage (k : ℕ) (stage : StartStage) : NamesState :=
  { s with starts := s.starts.modify k fun start => { start with stage := stage } }

def controllerOf (id : String) : Option NamedController :=
  (s.store.get? id).bind fun ref => s.controllers[ref]?

/-- What `handleDispatcherEstablishedEvent` registers: the name and the id of the controller. -/
def registration (id : String) : Option (String × String) :=
  (s.controllerOf id).bind fun c => (truthy c.instanceName).map fun name => (name, c.id)

def next : NamesAction → NamesState
  | .startRunner instanceId instanceName =>
    { s with
      store := (s.store.reserveStart instanceId instanceName).1
      starts :=
        match (s.store.reserveStart instanceId instanceName).2 with
        | some _ => s.starts
        | none => s.starts ++ [⟨instanceId, instanceName, .initializing⟩] }
  | .initialized k =>
    match s.startAt k [.initializing] with
    | none => s
    | some _ => s.setStage k .dispatching
  | .dispatched k =>
    match s.startAt k [.dispatching] with
    | none => s
    | some start =>
      { s.setStage k .connecting with
        controllers := s.controllers ++ [⟨start.id, start.instanceName⟩]
        store := s.store.set start.id s.controllers.length }
  | .startFails k =>
    match s.startAt k [.dispatching, .connecting] with
    | none => s
    | some start =>
      { s.setStage k .settled with store := s.store.releaseStart start.id start.instanceName }
  | .exited k =>
    match s.startAt k [.dispatching, .connecting] with
    | none => s
    | some start =>
      { s.setStage k .settled with store := s.store.releaseExited start.id start.instanceName }
  | .established id =>
    match s.registration id with
    | none => s
    | some (name, owner) => { s with store := s.store.registerName owner name }
  | .handshake ref instanceName =>
    { s with
      controllers := s.controllers.modify ref fun c => { c with instanceName := instanceName } }
  | .ended ref =>
    match s.controllers[ref]? with
    | none => s
    | some c =>
      if s.store.get? c.id = some ref then { s with store := s.store.delete c.id } else s
  | .cleanup id =>
    match s.controllerOf id with
    | none => s
    | some c =>
      let named :=
        match truthy c.instanceName with
        | none => s.store
        | some name => s.store.unregisterName id name
      { s with store := named.delete id }
  | .clear => { s with store := .new }

/-- A step leaves the names apart from the ids: the name that it registers, unless another instance
has it, is the id of no other instance, and the id that goes live is the name of no other
instance. -/
def KeepsApart : NamesAction → Prop
  | .established id =>
    ∀ name owner, s.registration id = some (name, owner) → s.store.has owner = true →
      (∀ other, truthy (s.store.nameMap.get? name) = some other → other = owner) →
        s.store.Knows name → name = owner
  | .dispatched k =>
    ∀ start, s.startAt k [.dispatching] = some start →
      ∀ owner, s.store.nameMap.get? start.id = some owner → owner = start.id
  | _ => True

structure Good (s : NamesState) : Prop where
  names : s.store.NamesGood
  controllers : ∀ c ∈ s.controllers, c.id ≠ ""
  starts : ∀ start ∈ s.starts, start.id ≠ ""

variable {s}

theorem forall_modify {α : Type} {l : List α} {k : ℕ} {f : α → α} {p : α → Prop}
    (h : ∀ x ∈ l, p x) (hf : ∀ x, p x → p (f x)) : ∀ x ∈ l.modify k f, p x := by
  intro x hx
  obtain ⟨i, hi⟩ := List.mem_iff_getElem?.mp hx
  rw [List.getElem?_modify] at hi
  obtain ⟨y, hy, rfl⟩ := Option.map_eq_some_iff.mp hi
  have hpy := h y (List.mem_of_getElem? hy)
  split_ifs
  · exact hf y hpy
  · exact hpy

theorem mem_of_startAt {k : ℕ} {stages : List StartStage} {start : NamedStart}
    (h : s.startAt k stages = some start) : start ∈ s.starts :=
  List.mem_of_getElem? (Option.filter_eq_some_iff.mp h).1

theorem Good.registration (h : s.Good) {id name owner : String}
    (hreg : s.registration id = some (name, owner)) : name ≠ "" ∧ owner ≠ "" := by
  obtain ⟨c, hc, hmap⟩ := Option.bind_eq_some_iff.mp hreg
  obtain ⟨given, hgiven, heq⟩ := Option.map_eq_some_iff.mp hmap
  obtain ⟨ref, -, hat⟩ := Option.bind_eq_some_iff.mp hc
  cases heq
  exact ⟨(InstancesStore.truthy_eq_some.mp hgiven).2, h.controllers c (List.mem_of_getElem? hat)⟩

theorem within_step {store' : InstancesStore} (hgood : s.store.NamesGood)
    (hwithin : s.store.Within store') (hagree : store'.NamesAgree) :
    store'.NamesGood ∧ (s.store.NamesApart → store'.NamesApart) :=
  ⟨⟨hagree, hgood.noBlank.within hwithin⟩, fun hapart => hapart.within hwithin⟩

theorem releaseStart_agree {store : InstancesStore} (h : store.NamesAgree) (id : String)
    (name : Option String) :
    (store.releaseStart id name).NamesAgree ∧ (store.releaseExited id name).NamesAgree := by
  have hreleased : (store.releaseId id).NamesAgree := h
  unfold InstancesStore.releaseStart InstancesStore.releaseExited
  cases truthy name with
  | none => exact ⟨hreleased, hreleased⟩
  | some given =>
    have hunregistered : (store.unregisterName id given).NamesAgree :=
      h.unregisterName id given
    exact ⟨hreleased.unregisterName id given, hunregistered⟩

/-- Registering a name in a good store: it stays good, and the names apart exactly if the name is
the id of no other instance. -/
theorem registerName_step {store : InstancesStore} (hgood : store.NamesGood)
    (hapart : store.NamesApart) {name owner : String} (hname : name ≠ "") (howner : owner ≠ "") :
    (store.registerName owner name).NamesGood ∧
      ((store.registerName owner name).NamesApart ↔
        (store.has owner = true →
          (∀ other, truthy (store.nameMap.get? name) = some other → other = owner) →
            store.Knows name → name = owner)) := by
  unfold InstancesStore.registerName
  by_cases hlive : store.has owner = true
  · rw [if_pos hlive]
    rcases store.reserveName_cases owner name with ⟨⟨other, hother, hne⟩, hnone⟩ | ⟨hfree, hsome⟩
    · -- another instance has the name
      rw [hnone]
      refine ⟨hgood, iff_of_true hapart fun _ hall => ?_⟩
      exact absurd (hall other hother) hne
    · obtain ⟨-, hset⟩ := hgood.reserveName hname howner hsome
      rw [hsome]
      refine ⟨hset, ?_⟩
      rw [Option.getD_some, hapart.setName_iff]
      constructor
      · intro hknown _ _
        exact hknown
      · intro hkeeps
        exact hkeeps hlive hfree
  · rw [if_neg hlive]
    exact ⟨hgood, iff_of_true hapart fun hhas => absurd hhas hlive⟩

theorem Good.step (h : s.Good) (hapart : s.store.NamesApart) (a : NamesAction) :
    (s.next a).Good ∧ ((s.next a).store.NamesApart ↔ s.KeepsApart a) := by
  have hunchanged : ∀ {P : Prop}, P → (s.Good ∧ (s.store.NamesApart ↔ P)) :=
    fun hP => ⟨h, iff_of_true hapart hP⟩
  have hstage : ∀ k stage, ∀ start ∈ (s.setStage k stage).starts, start.id ≠ "" :=
    fun k stage => forall_modify h.starts fun _ hid => hid
  cases a with
  | startRunner instanceId instanceName =>
    obtain ⟨hgood, hkept⟩ := InstancesStore.reserveStart_apart instanceId h.names hapart instanceName
    refine ⟨⟨hgood, h.controllers, ?_⟩, iff_of_true hkept trivial⟩
    simp only [next]
    cases hconflict : (s.store.reserveStart instanceId instanceName).2 with
    | some _ => exact h.starts
    | none =>
      intro start hstart
      rcases List.mem_append.mp hstart with hstart | hstart
      · exact h.starts start hstart
      · rw [List.mem_singleton.mp hstart]
        rintro rfl
        cases hconflict
  | initialized k =>
    simp only [next]
    split
    · exact hunchanged trivial
    · exact ⟨⟨h.names, h.controllers, hstage k _⟩, iff_of_true hapart trivial⟩
  | dispatched k =>
    simp only [next, KeepsApart]
    cases hat : s.startAt k [.dispatching] with
    | none => exact hunchanged (by simp)
    | some start =>
      have hid := h.starts start (mem_of_startAt hat)
      refine ⟨⟨h.names.set _, ?_, hstage k _⟩, ?_⟩
      · intro c hc
        rcases List.mem_append.mp hc with hc | hc
        · exact h.controllers c hc
        · rw [List.mem_singleton.mp hc]
          exact hid
      · show (s.store.set start.id s.controllers.length).NamesApart ↔ _
        rw [hapart.set_iff h.names.agree]
        constructor
        · rintro hfree other heq
          cases heq
          exact hfree
        · intro hfree
          exact hfree start rfl
  | startFails k =>
    simp only [next]
    split
    · exact hunchanged trivial
    · rename_i start _
      obtain ⟨hgood, hkept⟩ := within_step h.names
        (InstancesStore.within_releaseStart start.instanceName)
        (releaseStart_agree h.names.agree start.id start.instanceName).1
      exact ⟨⟨hgood, h.controllers, hstage k _⟩, iff_of_true (hkept hapart) trivial⟩
  | exited k =>
    simp only [next]
    split
    · exact hunchanged trivial
    · rename_i start _
      obtain ⟨hgood, hkept⟩ := within_step h.names
        (InstancesStore.within_releaseExited start.instanceName)
        (releaseStart_agree h.names.agree start.id start.instanceName).2
      exact ⟨⟨hgood, h.controllers, hstage k _⟩, iff_of_true (hkept hapart) trivial⟩
  | established id =>
    simp only [next, KeepsApart]
    cases hreg : s.registration id with
    | none => exact hunchanged (by simp)
    | some pair =>
      obtain ⟨name, owner⟩ := pair
      obtain ⟨hname, howner⟩ := h.registration hreg
      obtain ⟨hgood, hkept⟩ := registerName_step h.names hapart hname howner
      refine ⟨⟨hgood, h.controllers, h.starts⟩, hkept.trans ?_⟩
      constructor
      · rintro hkeeps name' owner' heq
        cases heq
        exact hkeeps
      · intro hkeeps
        exact hkeeps name owner rfl
  | handshake ref instanceName =>
    refine ⟨⟨h.names, ?_, h.starts⟩, iff_of_true hapart trivial⟩
    exact forall_modify h.controllers fun _ hid => hid
  | ended ref =>
    simp only [next]
    split
    · exact hunchanged trivial
    · rename_i c _
      split_ifs
      · obtain ⟨hgood, hkept⟩ := within_step h.names InstancesStore.within_delete
          (h.names.agree.delete c.id)
        exact ⟨⟨hgood, h.controllers, h.starts⟩, iff_of_true (hkept hapart) trivial⟩
      · exact hunchanged trivial
  | cleanup id =>
    simp only [next]
    split
    · exact hunchanged trivial
    · rename_i c _
      cases truthy c.instanceName with
      | none =>
        obtain ⟨hgood, hkept⟩ := within_step h.names InstancesStore.within_delete
          (h.names.agree.delete id)
        exact ⟨⟨hgood, h.controllers, h.starts⟩, iff_of_true (hkept hapart) trivial⟩
      | some name =>
        obtain ⟨hgood, hkept⟩ := within_step h.names
          (InstancesStore.within_unregisterName.trans InstancesStore.within_delete)
          ((h.names.agree.unregisterName id name).delete id)
        exact ⟨⟨hgood, h.controllers, h.starts⟩, iff_of_true (hkept hapart) trivial⟩
  | clear =>
    refine ⟨⟨⟨Inverse.empty, fun name owner hget => ?_⟩, h.controllers, h.starts⟩,
      iff_of_true (fun name owner hget => ?_) trivial⟩
    all_goals cases hget

theorem good_new : new.Good where
  names := ⟨Inverse.empty, nofun⟩
  controllers := nofun
  starts := nofun

/-- The names are apart from the ids of other instances, and are resolved to no other instance. -/
def Apart (s : NamesState) : Prop := s.store.NamesApart ∧ s.store.ResolvesNames

/-- In a run every name stays apart from the ids of other instances exactly if every step keeps it
so. -/
theorem names_apart_iff (as : List NamesAction) :
    System.Always next Apart new as ↔ System.Meets next KeepsApart new as := by
  have hkeeps : ∀ s a, True → Good s → Apart s → (Apart (s.next a) ↔ s.KeepsApart a) := by
    intro s a _ hgood hapart
    obtain ⟨-, hkept⟩ := hgood.step hapart.1 a
    rw [← hkept]
    constructor
    · intro hboth
      exact hboth.1
    · intro hnames
      exact ⟨hnames, hnames.resolves⟩
  have hgood : ∀ s a, True → Good s → Apart s → s.KeepsApart a → Good (s.next a) :=
    fun s a _ hgood hapart _ => (hgood.step hapart.1 a).1
  have hnew : new.store.NamesApart := nofun
  exact System.always_iff_meets hkeeps hgood good_new ⟨hnew, hnew.resolves⟩ as fun _ _ => trivial

/-- Instances `a` and `b` run, and `a` reports the name `b`: the second `PING` registers it. -/
theorem reportedName_meets_id :
    let as : List NamesAction := [.startRunner "a" none, .initialized 0, .dispatched 0,
      .startRunner "b" none, .initialized 1, .dispatched 1, .established "a",
      .handshake 0 (some "b"), .established "a"]
    let s := as.foldl next new
    s.store.nameMap.get? "b" = some "a" ∧ s.store.getByNameOrId "b" = some 1 ∧
      s.store.get? "a" = some 0 ∧ ¬ s.Apart := by
  intro as s
  have hname : s.store.nameMap.get? "b" = some "a" := by decide +kernel
  have hresolved : s.store.getByNameOrId "b" = some 1 := by decide +kernel
  have hlive : s.store.get? "a" = some 0 := by decide +kernel
  refine ⟨hname, hresolved, hlive, fun hapart => ?_⟩
  have hother := hapart.2 "b" "a" 1 hname hresolved
  rw [hlive] at hother
  cases hother

end NamesState

end TransformHub.Host.Instances

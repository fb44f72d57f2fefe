import TransformHub.Lib.InverseIndex
import TransformHub.Host.CsiDispatcherSteps

/-!
# Instances of a sequence

The list of instances that a sequence has in its store, against the controllers that are in the
store of instances.
-/

namespace TransformHub.Host.Instances

open OrderedMap

/-! ## Connected instances -/

/-- The sequence of a controller that is connected and has not ended. -/
def CSIController.connectedTo (c : CSIController) : Option String :=
  if c.connected && !c.ended then some c.sequence else none

namespace HostState

variable {s s' : HostState}

variable (s) in
/-- The sequence of the connected instance with an id. -/
def sequenceOf (id : String) : Option String :=
  (s.instancesStore.get? id).bind fun ref => s.controllers[ref]?.bind CSIController.connectedTo

/-- Every list of instances holds the connected instances of the sequence, once each. -/
def InstancesAgree (s : HostState) : Prop := Indexes s.sequenceStore s.sequenceOf

variable (s) in
/-- An instance is listed by its sequence, or ought to be. -/
def isListed (id : String) : Bool := listed s.sequenceStore s.sequenceOf id

/-- What is stored under an id is a controller with the id that has not ended. -/
def Registered (s : HostState) : Prop :=
  ∀ id ref, s.instancesStore.get? id = some ref →
    ∃ c, s.controllers[ref]? = some c ∧ c.id = id ∧ c.ended = false

theorem SameRegistry.sequenceOf (h : s.SameRegistry s') : s'.sequenceOf = s.sequenceOf := by
  funext id
  unfold HostState.sequenceOf InstancesStore.get?
  rw [h.registered, h.controllers]

theorem SameRegistry.instancesAgree_iff (h : s.SameRegistry s') :
    s'.InstancesAgree ↔ s.InstancesAgree := by
  unfold InstancesAgree
  rw [h.sequenceStore, h.sequenceOf]

theorem SameRegistry.registered_iff (h : s.SameRegistry s') : s'.Registered ↔ s.Registered := by
  unfold Registered InstancesStore.get?
  rw [h.registered, h.controllers]

variable {c : CSIController} {ref : ℕ} {id : String}

theorem Registered.sequenceOf_self (h : s.Registered) (hget : s.instancesStore.get? id = some ref)
    (hc : s.controllers[ref]? = some c) :
    s.sequenceOf id = if c.connected then some c.sequence else none := by
  obtain ⟨c', hc', -, hended⟩ := h id ref hget
  cases hc.symm.trans hc'
  rw [HostState.sequenceOf, hget, Option.bind_some, hc, Option.bind_some, CSIController.connectedTo, hended,
    Bool.not_false, Bool.and_true]

/-! ## Changes of the controllers -/

section Changes

theorem Registered.sequenceOf_updateController_of_ne (h : s.Registered)
    (hc : s.controllers[ref]? = some c) (hget : s.instancesStore.get? c.id ≠ some ref)
    (f : CSIController → CSIController) :
    (s.updateController ref f).sequenceOf = s.sequenceOf := by
  funext id
  show (s.instancesStore.get? id).bind _ = (s.instancesStore.get? id).bind _
  cases hid : s.instancesStore.get? id with
  | none => rfl
  | some ref' =>
    have hne : ref ≠ ref' := by
      rintro rfl
      obtain ⟨c', hc', hc'id, -⟩ := h id ref hid
      cases hc.symm.trans hc'
      rw [hc'id] at hget
      exact hget hid
    rw [Option.bind_some, Option.bind_some, updateController, List.getElem?_modify_ne _ _ hne]

theorem Registered.sequenceOf_updateController (h : s.Registered)
    (hc : s.controllers[ref]? = some c) (hget : s.instancesStore.get? c.id = some ref)
    (f : CSIController → CSIController) :
    (s.updateController ref f).sequenceOf =
      Function.update s.sequenceOf c.id (f c).connectedTo := by
  funext id
  by_cases hid : id = c.id
  · subst hid
    rw [Function.update_self]
    show (s.instancesStore.get? c.id).bind _ = _
    rw [hget, Option.bind_some, updateController, List.getElem?_modify_eq, hc]
    rfl
  · rw [Function.update_of_ne hid]
    show (s.instancesStore.get? id).bind _ = (s.instancesStore.get? id).bind _
    cases hget' : s.instancesStore.get? id with
    | none => rfl
    | some ref' =>
      have hne : ref ≠ ref' := by
        rintro rfl
        obtain ⟨c', hc', hc'id, -⟩ := h id ref hget'
        cases hc.symm.trans hc'
        exact hid hc'id.symm
      rw [Option.bind_some, Option.bind_some, updateController, List.getElem?_modify_ne _ _ hne]

theorem sequenceOf_updateController_same {f : CSIController → CSIController}
    (hf : ∀ c, (f c).connectedTo = c.connectedTo) :
    (s.updateController ref f).sequenceOf = s.sequenceOf := by
  funext id
  show (s.instancesStore.get? id).bind _ = (s.instancesStore.get? id).bind _
  congr 1
  funext ref'
  rw [updateController, List.getElem?_modify]
  cases s.controllers[ref']? with
  | none => rfl
  | some c =>
    show (if ref = ref' then f c else c).connectedTo = c.connectedTo
    split_ifs
    · exact hf c
    · rfl

theorem Registered.updateController (h : s.Registered) {f : CSIController → CSIController}
    (hf : ∀ c, (f c).id = c.id ∧ (f c).ended = c.ended) :
    (s.updateController ref f).Registered := by
  intro id ref' hget
  obtain ⟨c, hc, hid, hended⟩ := h id ref' hget
  by_cases hne : ref = ref'
  · subst hne
    refine ⟨f c, ?_, (hf c).1.trans hid, (hf c).2.trans hended⟩
    rw [HostState.updateController, List.getElem?_modify_eq, hc]
    rfl
  · refine ⟨c, ?_, hid, hended⟩
    rw [HostState.updateController, List.getElem?_modify_ne _ _ hne]
    exact hc

theorem sequenceOf_delete (hcontrollers : s'.controllers = s.controllers)
    (hregistered : s'.instancesStore.controllers = s.instancesStore.controllers.delete id) :
    s'.sequenceOf = Function.update s.sequenceOf id none := by
  funext id'
  rw [sequenceOf, InstancesStore.get?, hregistered, hcontrollers, get?_delete]
  split_ifs with hid
  · subst hid
    rw [Function.update_self]
    rfl
  · rw [Function.update_of_ne (Ne.symm hid)]
    rfl

theorem Registered.delete (h : s.Registered) (hcontrollers : s'.controllers = s.controllers)
    (hregistered : s'.instancesStore.controllers = s.instancesStore.controllers.delete id) :
    s'.Registered := by
  intro id' ref hget
  rw [InstancesStore.get?, hregistered, get?_delete] at hget
  split_ifs at hget
  rw [hcontrollers]
  exact h id' ref hget

theorem Registered.sequenceOf_create (h : s.Registered) (start : Start) :
    (s.createCSIController start).sequenceOf =
      Function.update s.sequenceOf start.payload.id none := by
  funext id
  show ((s.createCSIController start).instancesStore.get? id).bind _ = _
  rw [InstancesStore.get?, createCSIController, InstancesStore.controllers_set,
    get?_set]
  split_ifs with hid
  · subst hid
    rw [Function.update_self, Option.bind_some, List.getElem?_concat_length]
    rfl
  · rw [Function.update_of_ne (Ne.symm hid), HostState.sequenceOf, InstancesStore.get?]
    cases hget : s.instancesStore.controllers.get? id with
    | none => rfl
    | some ref =>
      obtain ⟨c, hc, -⟩ := h id ref hget
      rw [Option.bind_some, Option.bind_some,
        List.getElem?_append_left (List.getElem?_eq_some_iff.mp hc).1]

theorem Registered.create (h : s.Registered) (start : Start) :
    (s.createCSIController start).Registered := by
  intro id ref hget
  rw [InstancesStore.get?, createCSIController, InstancesStore.controllers_set,
    get?_set] at hget
  split_ifs at hget with hid
  · cases hget
    exact ⟨_, List.getElem?_concat_length, hid, rfl⟩
  · obtain ⟨c, hc, hcid⟩ := h id ref hget
    exact ⟨c, getElem?_append_of_some hc, hcid⟩

end Changes

/-! ## Steps of an instance -/

theorem sequenceStore_pushInstance (c : CSIController) :
    (s.pushInstance c).sequenceStore =
      match s.sequenceStore.get? c.sequence with
      | none => s.sequenceStore
      | some ids => s.sequenceStore.set c.sequence (ids ++ [c.id]) := by
  unfold pushInstance
  cases s.sequenceStore.get? c.sequence <;> rfl

/-- The list of a sequence is right after a `ping` if it is the first one of an instance of the
store, and if the sequence is not there. -/
theorem InstancesAgree.onPing_iff (h : s.InstancesAgree) (hreg : s.Registered)
    (hc : s.controllers[ref]? = some c) :
    (s.onPing ref true).InstancesAgree ↔
      (s.sequenceStore.has c.sequence = true →
        s.instancesStore.get? c.id = some ref ∧ c.connected = false) := by
  have hping : ((s.pushInstance c).updateController ref fun c =>
      { c with connected := true }).SameRegistry (s.onPing ref true) := by
    unfold onPing
    rw [hc]
    have hestablished := sameRegistry_established ((s.pushInstance c).updateController ref fun c =>
      { c with connected := true }) ref c
    exact { hestablished with }
  rw [hping.instancesAgree_iff]
  have hsame : ((s.pushInstance c).updateController ref fun c => { c with connected := true
      }).sequenceOf = (s.updateController ref fun c => { c with connected := true }).sequenceOf := by
    unfold pushInstance
    split <;> rfl
  unfold InstancesAgree
  rw [hsame]
  show Indexes (s.pushInstance c).sequenceStore _ ↔ _
  rw [sequenceStore_pushInstance]
  by_cases hstored : s.instancesStore.get? c.id = some ref
  · have hself := hreg.sequenceOf_self hstored hc
    obtain ⟨c', hc', -, hended⟩ := hreg c.id ref hstored
    cases hc.symm.trans hc'
    rw [hreg.sequenceOf_updateController hc hstored]
    have hconnected : CSIController.connectedTo { c with connected := true } = some c.sequence := by
      simp [CSIController.connectedTo, hended]
    rw [hconnected]
    cases hseq : s.sequenceStore.get? c.sequence with
    | none =>
      refine ⟨fun _ hhas => ?_, fun _ => ?_⟩
      · rw [has, hseq] at hhas
        cases hhas
      · cases hconn : c.connected with
        | false =>
          rw [hconn] at hself
          exact h.enter hseq hself
        | true =>
          rw [hconn, if_pos rfl] at hself
          rw [← hself, Function.update_eq_self]
          exact h
    | some ids =>
      dsimp only
      have hhas : s.sequenceStore.has c.sequence = true := by rw [has, hseq]; rfl
      cases hconn : c.connected with
      | false =>
        rw [hconn] at hself
        exact ⟨fun _ _ => ⟨hstored, rfl⟩, fun _ => h.push hseq hself⟩
      | true =>
        rw [hconn, if_pos rfl] at hself
        rw [← hself, Function.update_eq_self]
        exact ⟨fun hnew => absurd hnew (h.not_push hseq), fun hnot => by cases (hnot hhas).2⟩
  · rw [hreg.sequenceOf_updateController_of_ne hc hstored]
    cases hseq : s.sequenceStore.get? c.sequence with
    | none =>
      refine ⟨fun _ hhas => ?_, fun _ => h⟩
      rw [has, hseq] at hhas
      cases hhas
    | some ids =>
      have hhas : s.sequenceStore.has c.sequence = true := by rw [has, hseq]; rfl
      exact ⟨fun hnew => absurd hnew (h.not_push hseq), fun hnot => absurd (hnot hhas).1 hstored⟩

theorem Registered.onPing (h : s.Registered) (ref : ℕ) (accepted : Bool) :
    (s.onPing ref accepted).Registered := by
  unfold HostState.onPing
  split
  · exact h
  · rename_i c hc
    split_ifs
    · have hpush : (s.pushInstance c).Registered := by
        unfold pushInstance
        split <;> exact h
      have hupdate : ((s.pushInstance c).updateController ref fun c =>
          { c with connected := true }).Registered := hpush.updateController fun c => ⟨rfl, rfl⟩
      have hestablished := (sameRegistry_established _ ref c).registered_iff.mpr hupdate
      exact hestablished
    · exact h

/-- An id leaves the store or stays. -/
structure Forgets (s s' : HostState) (id : String) (b : Bool) : Prop where
  sequenceStore : s'.sequenceStore = s.sequenceStore
  sequenceOf : s'.sequenceOf = if b then Function.update s.sequenceOf id none else s.sequenceOf
  registered : s'.Registered

theorem Forgets.instancesAgree_iff {b : Bool} (h : s.Forgets s' id b) (hs : s.InstancesAgree) :
    s'.InstancesAgree ↔ (b = true → s.isListed id = false) := by
  unfold InstancesAgree
  rw [h.sequenceStore, h.sequenceOf]
  cases b with
  | false => exact ⟨fun _ hb => (nomatch hb), fun _ => hs⟩
  | true => exact (Indexes.forget_iff hs).trans ⟨fun hlisted _ => hlisted, fun hlisted => hlisted rfl⟩

theorem Forgets.of_same {s₁ s₂ : HostState} {b : Bool} (h : s₁.Forgets s₂ id b)
    (hstore : s₁.sequenceStore = s.sequenceStore) (hseq : s₁.sequenceOf = s.sequenceOf)
    (hs' : s₂.SameRegistry s') : s.Forgets s' id b where
  sequenceStore := hs'.sequenceStore.trans (h.sequenceStore.trans hstore)
  sequenceOf := by rw [hs'.sequenceOf, h.sequenceOf, hseq]
  registered := hs'.registered_iff.mpr h.registered

theorem cleanup_eq (hget : s.instancesStore.get? id = some ref) :
    ∃ store : InstancesStore,
      s.cleanupRequiredStartupInstance id = { s with instancesStore := store } ∧
        store.controllers =
          if s.requiredStartupEntriesByInstanceId.has id then
            s.instancesStore.controllers.delete id
          else s.instancesStore.controllers := by
  unfold cleanupRequiredStartupInstance
  split_ifs
  · rw [hget]
    refine ⟨_, rfl, ?_⟩
    rw [InstancesStore.controllers_delete]
    split
    · rfl
    · rw [InstancesStore.controllers_unregisterName]
  · exact ⟨s.instancesStore, rfl, rfl⟩

theorem Registered.cleanup (h : s.Registered) (hget : s.instancesStore.get? id = some ref) :
    s.Forgets (s.cleanupRequiredStartupInstance id) id
      (s.requiredStartupEntriesByInstanceId.has id) := by
  obtain ⟨store, heq, hstore⟩ := cleanup_eq hget
  rw [heq]
  cases htracked : s.requiredStartupEntriesByInstanceId.has id with
  | true =>
    rw [htracked, if_pos rfl] at hstore
    exact ⟨rfl, sequenceOf_delete rfl hstore, h.delete rfl hstore⟩
  | false =>
    rw [htracked, if_neg Bool.false_ne_true] at hstore
    have hsame : s.SameRegistry { s with instancesStore := store } := ⟨rfl, rfl, hstore⟩
    exact ⟨rfl, hsame.sequenceOf, hsame.registered_iff.mpr h⟩

variable (s) in
/-- A controller of the store is tracked for a startup entry. -/
def isTracked (ref : ℕ) (c : CSIController) : Bool :=
  s.instancesStore.get? c.id = some ref && s.requiredStartupEntriesByInstanceId.has c.id

theorem isTracked_of_stored (hstored : s.instancesStore.get? c.id = some ref) :
    s.isTracked ref c = s.requiredStartupEntriesByInstanceId.has c.id := by
  rw [isTracked, decide_eq_true hstored, Bool.true_and]

theorem isTracked_of_not_stored (hstored : s.instancesStore.get? c.id ≠ some ref) :
    s.isTracked ref c = false := by
  rw [isTracked, decide_eq_false hstored, Bool.false_and]

theorem byInstanceId_observeFailure (launch : Option (String × ℕ)) :
    (s.observeFailure launch).requiredStartupEntriesByInstanceId =
      s.requiredStartupEntriesByInstanceId := by
  unfold observeFailure updateEntry
  split
  · rfl
  · split <;> rfl

theorem Registered.onTerminated (h : s.Registered) (hc : s.controllers[ref]? = some c)
    (hterminated : c.terminated = false) :
    s.Forgets (s.onTerminated ref) c.id (s.isTracked ref c) := by
  have hreg : (s.updateController ref fun c => { c with terminated := true }).Registered :=
    h.updateController fun c => ⟨rfl, rfl⟩
  have hseq : (s.updateController ref fun c => { c with terminated := true }).sequenceOf =
      s.sequenceOf := sequenceOf_updateController_same fun c => rfl
  have hobserve := (sameInstances_observeFailure
    (s.updateController ref fun c => { c with terminated := true }) c.launch).toSameRegistry
  have hget : ((s.updateController ref fun c => { c with terminated := true }).observeFailure
      c.launch).instancesStore.get? c.id = s.instancesStore.get? c.id := by
    rw [InstancesStore.get?, hobserve.registered]
    rfl
  unfold HostState.onTerminated
  rw [hc]
  dsimp only
  rw [if_neg (by simp [hterminated])]
  unfold handleDispatcherTerminatedEvent
  rw [hget]
  split_ifs with hstored
  · have hcleanup := (hobserve.registered_iff.mpr hreg).cleanup (hget.trans hstored)
    rw [byInstanceId_observeFailure] at hcleanup
    rw [isTracked_of_stored hstored]
    exact hcleanup.of_same hobserve.sequenceStore (hobserve.sequenceOf.trans hseq)
      (sameInstances_handleExit _ c.id).toSameRegistry
  · rw [isTracked_of_not_stored hstored]
    exact ⟨hobserve.sequenceStore, hobserve.sequenceOf.trans hseq,
      hobserve.registered_iff.mpr hreg⟩

theorem Registered.updateController_gone (h : s.Registered) (hc : s.controllers[ref]? = some c)
    {f : CSIController → CSIController} (hcontrollers : s'.controllers = s.controllers.modify ref f)
    (hgone : s'.instancesStore.get? c.id ≠ some ref)
    (hregistered : ∀ id ref', s'.instancesStore.get? id = some ref' → s.instancesStore.get? id = some ref') :
    s'.Registered := by
  intro id ref' hget
  obtain ⟨c', hc', hid, hended⟩ := h id ref' (hregistered id ref' hget)
  refine ⟨c', ?_, hid, hended⟩
  have hne : ref ≠ ref' := by
    rintro rfl
    cases hc.symm.trans hc'
    rw [hid] at hgone
    exact hgone hget
  rw [hcontrollers, List.getElem?_modify_ne _ _ hne]
  exact hc'

variable (s) in
/-- The sequences when an instance is off the list of its sequence. -/
def filterInstance (c : CSIController) : OrderedMap String (List String) :=
  match s.sequenceStore.get? c.sequence with
  | none => s.sequenceStore
  | some ids => s.sequenceStore.set c.sequence (ids.filter (· ≠ c.id))

theorem removed_of_stored (hstored : s.instancesStore.get? c.id = some ref) :
    ((s.handleDispatcherEndEvent ref c).removeInstance ref c).controllers = s.controllers ∧
      ((s.handleDispatcherEndEvent ref c).removeInstance ref c).instancesStore.controllers =
        s.instancesStore.controllers.delete c.id ∧
      ((s.handleDispatcherEndEvent ref c).removeInstance ref c).sequenceStore =
        if s.requiredStartupEntriesByInstanceId.has c.id then s.sequenceStore
        else s.filterInstance c := by
  obtain ⟨store, hcleanup, hstore⟩ := cleanup_eq hstored
  have hevent : ({ s with instancesStore := store } : HostState).SameRegistry
      (s.handleDispatcherEndEvent ref c) := by
    unfold handleDispatcherEndEvent
    rw [if_pos hstored, hcleanup]
    have hsend := sameRegistry_sendInstanceInfo { s with instancesStore := store } ref true
    exact { hsend with }
  have hget : (s.handleDispatcherEndEvent ref c).instancesStore.get? c.id = store.get? c.id := by
    rw [InstancesStore.get?, hevent.registered]
    rfl
  unfold removeInstance
  rw [hget, InstancesStore.get?, hstore]
  split_ifs with htracked hsome hsome
  · rw [get?_delete_self] at hsome
    cases hsome
  · rw [htracked, if_pos rfl] at hstore
    exact ⟨hevent.controllers, hevent.registered.trans hstore, hevent.sequenceStore⟩
  · rw [if_neg htracked] at hstore
    refine ⟨hevent.controllers, ?_, ?_⟩
    · show (InstancesStore.delete _ _).controllers = _
      rw [InstancesStore.controllers_delete, hevent.registered]
      exact congrArg (fun controllers => delete controllers c.id) hstore
    · show (match (s.handleDispatcherEndEvent ref c).sequenceStore.get? c.sequence with
        | none => (s.handleDispatcherEndEvent ref c).sequenceStore
        | some ids => (s.handleDispatcherEndEvent ref c).sequenceStore.set c.sequence
            (ids.filter (· ≠ c.id))) = _
      rw [hevent.sequenceStore]
      rfl
  · exact absurd hstored hsome

theorem removed_of_not_stored (hstored : s.instancesStore.get? c.id ≠ some ref) :
    (s.handleDispatcherEndEvent ref c).removeInstance ref c = s := by
  have hevent : s.handleDispatcherEndEvent ref c = s := by
    unfold handleDispatcherEndEvent
    exact if_neg hstored
  have hremove : s.removeInstance ref c = s := by
    unfold removeInstance
    exact if_neg hstored
  rw [hevent, hremove]

theorem Registered.onEnd (h : s.Registered) (ref : ℕ) : (s.onEnd ref).Registered := by
  unfold HostState.onEnd
  split
  · exact h
  · rename_i c hc
    split_ifs with hend
    · by_cases hstored : s.instancesStore.get? c.id = some ref
      · obtain ⟨hcontrollers, hregistered, -⟩ := removed_of_stored
          (s := s.updateController ref fun c => { c with ended := true }) hstored
        refine h.updateController_gone hc hcontrollers ?_ fun id ref' hget => ?_
        · rw [InstancesStore.get?, hregistered, get?_delete_self]
          exact fun hnone => nomatch hnone
        · rw [InstancesStore.get?, hregistered, get?_delete] at hget
          split_ifs at hget
          exact hget
      · rw [removed_of_not_stored (s := s.updateController ref fun c => { c with ended := true })
          hstored]
        exact h.updateController_gone hc rfl hstored fun _ _ hget => hget
    · exact h

theorem InstancesAgree.onEnd (h : s.InstancesAgree) (hreg : s.Registered)
    (hc : s.controllers[ref]? = some c) (hend : (c.terminated && !c.ended) = true) :
    (s.onEnd ref).InstancesAgree ↔ (s.isTracked ref c = true → s.isListed c.id = false) := by
  unfold HostState.onEnd
  rw [hc]
  dsimp only
  rw [if_pos hend]
  by_cases hstored : s.instancesStore.get? c.id = some ref
  · -- the controller ends and leaves the store
    have hended := hreg.sequenceOf_updateController hc hstored fun c => { c with ended := true }
    have hnone : CSIController.connectedTo { c with ended := true } = none := by
      simp [CSIController.connectedTo]
    rw [hnone] at hended
    obtain ⟨hcontrollers, hregistered, hsequences⟩ := removed_of_stored
      (s := s.updateController ref fun c => { c with ended := true }) hstored
    have hsequenceOf := (sequenceOf_delete hcontrollers hregistered).trans
      (congrArg (fun f => Function.update f c.id none) hended)
    rw [Function.update_idem] at hsequenceOf
    unfold InstancesAgree
    rw [hsequenceOf, hsequences, isTracked_of_stored hstored]
    show Indexes (if s.requiredStartupEntriesByInstanceId.has c.id = true then s.sequenceStore
      else s.filterInstance c) _ ↔ _
    cases htracked : s.requiredStartupEntriesByInstanceId.has c.id with
    | true => exact (Indexes.forget_iff h).trans ⟨fun hl _ => hl, fun hl => hl rfl⟩
    | false =>
      refine ⟨fun _ ht => (nomatch ht), fun _ => ?_⟩
      have hself := hreg.sequenceOf_self hstored hc
      have hvalue : s.sequenceOf c.id = none ∨ s.sequenceOf c.id = some c.sequence := by
        rw [hself]
        cases c.connected
        · exact .inl rfl
        · exact .inr rfl
      unfold filterInstance
      cases hget : s.sequenceStore.get? c.sequence with
      | some ids => exact Indexes.filter h hget hvalue
      | none =>
        refine (Indexes.forget_iff h).mpr ?_
        rw [← Bool.not_eq_true, listed_iff]
        rintro ⟨q, ids, hq, hids⟩
        rcases hvalue with hvalue | hvalue
        · rw [hvalue] at hq
          cases hq
        · rw [hvalue, Option.some_inj] at hq
          rw [← hq, hget] at hids
          cases hids
  · -- another controller has the id, or none
    rw [removed_of_not_stored (s := s.updateController ref fun c => { c with ended := true }) hstored,
      isTracked_of_not_stored hstored]
    unfold InstancesAgree
    rw [hreg.sequenceOf_updateController_of_ne hc hstored]
    exact ⟨fun _ ht => (nomatch ht), fun _ => h⟩

/-! ## Runs -/

variable (s) in
/-- The step takes no list and no instance away from under the other: a sequence is stored again
only when no instance of it is connected; an instance is created under no id that is listed; a
`ping` is the first one of an instance of the store, if its sequence is there; and an instance that
is tracked for a startup entry terminates or ends only when it is not listed. -/
def KeepsLists : Action → Prop
  | .addSequence q => ∀ id ∈ s.instancesStore.controllers.keys, s.sequenceOf id ≠ some q
  | .dispatched k => ∀ start ∈ s.startAt k [.dispatching], s.isListed start.payload.id = false
  | .ping ref true => ∀ c ∈ s.controllers[ref]?, s.sequenceStore.has c.sequence = true →
      s.instancesStore.get? c.id = some ref ∧ c.connected = false
  | .terminated ref => ∀ c ∈ s.controllers[ref]?, c.terminated = false → s.isTracked ref c = true →
      s.isListed c.id = false
  | .ended ref => ∀ c ∈ s.controllers[ref]?, (c.terminated && !c.ended) = true →
      s.isTracked ref c = true → s.isListed c.id = false
  | _ => True

theorem sequenceOf_eq_none (hid : id ∉ s.instancesStore.controllers.keys) :
    s.sequenceOf id = none := by
  rw [mem_keys_iff, Bool.not_eq_true, Option.isSome_eq_false_iff,
    Option.isNone_iff_eq_none] at hid
  rw [sequenceOf, InstancesStore.get?, hid]
  rfl

theorem Registered.next (h : s.Registered) (a : Action) : (s.next a).Registered := by
  cases a with
  | startRunner | performStartup | initialized | initFails | ready | startFails | endSent | immediate
  | stop => exact (s.sameInstances_next rfl).registered_iff.mpr h
  | addSequence | deleteSequence | connection => exact h
  | dispatched k =>
    simp only [HostState.next]
    split
    · exact h
    · have hset : (s.setStage k .connecting).Registered := h
      exact hset.create _
  | ping ref accepted => exact h.onPing ref accepted
  | terminated ref =>
    simp only [HostState.next]
    cases hc : s.controllers[ref]? with
    | none =>
      have hsame : s.onTerminated ref = s := by simp only [HostState.onTerminated, hc]
      rw [hsame]
      exact h
    | some c =>
      cases hterminated : c.terminated with
      | false => exact (h.onTerminated hc hterminated).registered
      | true =>
        have hsame : s.onTerminated ref = s := by
          simp only [HostState.onTerminated, hc, hterminated]
          rfl
        rw [hsame]
        exact h
  | ended ref => exact h.onEnd ref
  | fetched i =>
    simp only [HostState.next]
    split
    · exact h
    · have herase : ({ s with fetching := s.fetching.eraseIdx i } : HostState).Registered := h
      exact (sameRegistry_sendInstanceInfo _ _ false).registered_iff.mpr herase

theorem InstancesAgree.next (h : s.InstancesAgree) (hreg : s.Registered) (a : Action) :
    (s.next a).InstancesAgree ↔ s.KeepsLists a := by
  have hsame : ∀ s' : HostState, s.SameRegistry s' → (s'.InstancesAgree ↔ True) :=
    fun s' hs' => iff_true_intro (hs'.instancesAgree_iff.mpr h)
  cases a with
  | addSequence q =>
    refine (Indexes.reset_iff h).trans ⟨fun hnone id _ => hnone id, fun hkeys id => ?_⟩
    by_cases hid : id ∈ s.instancesStore.controllers.keys
    · exact hkeys id hid
    · rw [sequenceOf_eq_none hid]
      exact fun hnone => nomatch hnone
  | deleteSequence q => exact iff_true_intro (Indexes.delete h q)
  | startRunner | performStartup | initialized | initFails | ready | startFails | endSent | immediate
  | stop => exact hsame _ (s.sameInstances_next rfl).toSameRegistry
  | dispatched k =>
    simp only [HostState.next, KeepsLists]
    cases hstart : s.startAt k [.dispatching] with
    | none => exact iff_of_true h (by simp)
    | some start =>
      have hreg' : (s.setStage k .connecting).Registered := hreg
      have hforget : s.Forgets ((s.setStage k .connecting).createCSIController start)
          start.payload.id true :=
        ⟨rfl, hreg'.sequenceOf_create start, hreg'.create start⟩
      rw [hforget.instancesAgree_iff h]
      simp
  | ping ref accepted =>
    cases hc : s.controllers[ref]? with
    | none =>
      have hnone : s.next (.ping ref accepted) = s := by simp only [HostState.next, onPing, hc]
      rw [hnone]
      cases accepted <;> simp [KeepsLists, hc, h]
    | some c =>
      cases accepted with
      | true =>
        refine (h.onPing_iff hreg hc).trans ?_
        simp only [KeepsLists, hc, Option.mem_some_iff, forall_eq']
      | false =>
        have hsame : s.next (.ping ref false) = s := by
          simp only [HostState.next, onPing, hc]
          rfl
        rw [hsame]
        exact iff_true_intro h
  | terminated ref =>
    simp only [HostState.next, KeepsLists]
    cases hc : s.controllers[ref]? with
    | none =>
      have hnone : s.onTerminated ref = s := by simp only [onTerminated, hc]
      rw [hnone]
      exact iff_of_true h (by simp)
    | some c =>
      cases hterminated : c.terminated with
      | true =>
        have hnone : s.onTerminated ref = s := by
          simp only [onTerminated, hc, hterminated]
          rfl
        rw [hnone]
        exact iff_of_true h (by simp [hterminated])
      | false =>
        have hforget := hreg.onTerminated hc hterminated
        refine (hforget.instancesAgree_iff h).trans ?_
        simp [hterminated]
  | ended ref =>
    simp only [HostState.next, KeepsLists]
    cases hc : s.controllers[ref]? with
    | none =>
      have hnone : s.onEnd ref = s := by simp only [HostState.onEnd, hc]
      rw [hnone]
      exact iff_of_true h (by simp)
    | some c =>
      cases hend : c.terminated && !c.ended with
      | true =>
        have hiff := h.onEnd hreg hc hend
        refine hiff.trans ⟨fun hlisted c' hc' _ => ?_, fun hlisted => hlisted c rfl hend⟩
        cases hc'
        exact hlisted
      | false =>
        have hnone : s.onEnd ref = s := by
          simp only [HostState.onEnd, hc, hend]
          rfl
        rw [hnone]
        refine iff_of_true h fun c' hc' hend' => ?_
        cases hc'
        rw [hend] at hend'
        cases hend'
  | fetched i =>
    simp only [HostState.next]
    split
    · exact hsame _ ⟨rfl, rfl, rfl⟩
    · rename_i ref hget
      have hsend := sameRegistry_sendInstanceInfo { s with fetching := s.fetching.eraseIdx i } ref
        false
      exact hsame _ { hsend with }
  | connection connected => exact hsame _ ⟨rfl, rfl, rfl⟩

theorem registered_new : new.Registered := by
  intro id ref hget
  have hnone : (none : Option ℕ) = some ref := hget
  cases hnone

/-- The lists agree with the store of instances in every state of a run exactly if every step keeps
them. -/
theorem instancesAgree_iff_keepsLists (as : List Action) :
    System.Always HostState.next InstancesAgree new as ↔
      System.Meets HostState.next KeepsLists new as :=
  System.always_iff_meets (I := Registered) (A := fun _ => True)
    (fun _ a _ hreg h => h.next hreg a) (fun _ a _ hreg _ _ => hreg.next a) registered_new
    (indexes_empty _) as fun _ _ => trivial

/-- What is stored under an id is always a controller of that id that has not ended. -/
theorem stored_not_ended (as : List Action) :
    let s := as.foldl HostState.next new
    ∀ id ref, s.instancesStore.get? id = some ref →
      ∃ c, s.controllers[ref]? = some c ∧ c.id = id ∧ c.ended = false :=
  (System.reachable_foldl as).invariant_ofFun registered_new fun _ a hs _ => hs.next a

/-- A required instance connects and terminates. -/
def requiredInstance : List Action :=
  [.addSequence "sequence", .performStartup "key" ⟨"instance", "sequence", none⟩ 1, .initialized 0,
    .dispatched 0, .ping 0 true, .ready 0, .terminated 0, .ended 0]

/-- It stays in the list of its sequence. -/
theorem requiredInstance_stays : ¬ ∀ as :
    List Action, (as.foldl HostState.next new).InstancesAgree := by
  intro hall
  have hlist : (requiredInstance.foldl HostState.next new).sequenceStore.get? "sequence" =
      some ["instance"] := by decide +kernel
  have hgone : (requiredInstance.foldl HostState.next new).sequenceOf "instance" = none := by
    decide +kernel
  have hmem := ((hall requiredInstance "sequence" _ hlist).2 "instance").mp (List.mem_singleton_self _)
  rw [hgone] at hmem
  cases hmem

end HostState

end TransformHub.Host.Instances

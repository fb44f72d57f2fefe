import TransformHub.Host.SequenceInstances

/-!
# Deletion of sequences

`Host.deleteSequence`, among the steps of the instances.
-/

namespace TransformHub.Host.Instances

/-! ## `deleteSequence` -/

/-- What a forced deletion waits for, one for each instance of the list. -/
inductive Wait where
  | killing (instanceId : String) (ref : ℕ)
  /-- for `end` of the controller that has the id after that; if there is none, for ever -/
  | listening (ref : Option ℕ)
  | ended
deriving DecidableEq

def Wait.ref? : Wait → Option ℕ
  | .killing _ ref => some ref
  | .listening ref => ref
  | .ended => none

inductive DeletionOutcome where
  | removed
  | unknownSequence
  | sequenceInUse
  | controllerError
  | killError
deriving DecidableEq

inductive DeletionStage where
  | waiting (waits : List Wait)
  /-- the adapter removes the sequence -/
  | removing
  | settled (outcome : DeletionOutcome)
deriving DecidableEq

def DeletionStage.isSettled : DeletionStage → Bool
  | .settled _ => true
  | _ => false

/-- A call of `deleteSequence`. -/
structure Deletion where
  id : String
  force : Bool
  stage : DeletionStage
deriving DecidableEq

structure DeletingHost where
  host : HostState
  /-- controllers with a `finalizingPromise` -/
  finalizing : List ℕ
  /-- controllers with no `instanceLifetimeExtensionDelay` any more -/
  removeImmediately : List ℕ
  deletions : List Deletion

/-- What `Promise.all` comes to. -/
def DeletionStage.ofWaits (waits : List Wait) : DeletionStage :=
  if waits.all (· = .ended) then .removing else .waiting waits

/-- The listeners of a deletion, when a controller emits `end`. -/
def Deletion.onEnd (ref : ℕ) (d : Deletion) : Deletion :=
  match d.stage with
  | .waiting waits =>
    { d with
      stage := .ofWaits (waits.map fun w => if w = .listening (some ref) then .ended else w) }
  | _ => d

/-- The controller that emits `end` in a step. -/
def HostState.emitsEnd (s : HostState) : Action → Option ℕ
  | .ended ref =>
    match s.controllers[ref]? with
    | none => none
    | some c => if c.terminated && !c.ended then some ref else none
  | _ => none

inductive DeletionAction where
  /-- a step of the instances -/
  | host (a : Action)
  /-- a controller that has terminated begins to wait for `instanceLifetimeExtensionDelay` -/
  | finalizes (ref : ℕ)
  | deleteSequence (id : String) (force : Bool)
  /-- `kill` returns, or fails -/
  | killed (d i : ℕ)
  | killFails (d i : ℕ)
  /-- the adapter has removed the sequence, or has failed to -/
  | removed (d : ℕ)
  | removeFails (d : ℕ)

namespace DeletingHost

def new : DeletingHost where
  host := .new
  finalizing := []
  removeImmediately := []
  deletions := []

variable (s : DeletingHost)

def isRunning (instanceId : String) : Bool :=
  (s.host.instancesStore.get? instanceId).any fun ref => !s.finalizing.contains ref

/-- `deleteSequence`, up to what it waits for. -/
def deleteSequence (id : String) (force : Bool) : DeletingHost :=
  let call (stage : DeletionStage) : List Deletion := s.deletions ++ [⟨id, force, stage⟩]
  match s.host.sequenceStore.get? id with
  | none => { s with deletions := call (.settled .unknownSequence) }
  | some instances =>
    if !instances.isEmpty && instances.all s.isRunning then
      if !force then { s with deletions := call (.settled .sequenceInUse) }
      else
        { s with
          removeImmediately :=
            s.removeImmediately ++ instances.filterMap s.host.instancesStore.get?
          deletions := call (.waiting (instances.filterMap fun instanceId =>
            (s.host.instancesStore.get? instanceId).map (Wait.killing instanceId))) }
    else { s with deletions := call .removing }

def setStage (d : ℕ) (stage : DeletionStage) : DeletingHost :=
  { s with deletions := s.deletions.modify d fun deletion => { deletion with stage := stage } }

def killAt (d i : ℕ) : Option (List Wait × String × ℕ) :=
  match s.deletions[d]?.map Deletion.stage with
  | some (.waiting waits) =>
    match waits[i]? with
    | some (.killing instanceId ref) => some (waits, instanceId, ref)
    | _ => none
  | _ => none

def removingAt (d : ℕ) : Option Deletion :=
  s.deletions[d]?.filter fun deletion => deletion.stage = .removing

def next : DeletionAction → DeletingHost
  | .host (.deleteSequence _) => s
  | .host a =>
    { s with
      host := s.host.next a
      deletions :=
        match s.host.emitsEnd a with
        | none => s.deletions
        | some ref => s.deletions.map (Deletion.onEnd ref) }
  | .finalizes ref =>
    match s.host.controllers[ref]? with
    | none => s
    | some c =>
      if c.terminated && !c.ended && !s.removeImmediately.contains ref then
        { s with finalizing := s.finalizing ++ [ref] }
      else s
  | .deleteSequence id force => s.deleteSequence id force
  | .killed d i =>
    match s.killAt d i with
    | none => s
    | some (waits, instanceId, _) =>
      -- the controller is looked up once more
      s.setStage d (.waiting (waits.set i (.listening (s.host.instancesStore.get? instanceId))))
  | .killFails d i =>
    match s.killAt d i with
    | none => s
    | some _ => s.setStage d (.settled .killError)
  | .removed d =>
    match s.removingAt d with
    | none => s
    | some deletion =>
      { s with host := s.host.next (.deleteSequence deletion.id) }.setStage d (.settled .removed)
  | .removeFails d =>
    match s.removingAt d with
    | none => s
    | some _ => s.setStage d (.settled .controllerError)

def system : System DeletingHost DeletionAction := .ofFun new next

end DeletingHost

/-! ## Safety of a deletion -/

/-- An instance is not in the way of a deletion: it does not run any more, or has ended. -/
def CSIController.isOver (c : CSIController) (force : Bool) : Bool :=
  if force then c.ended else c.terminated

variable {c : CSIController}

theorem connectedTo_eq_some {id : String} :
    c.connectedTo = some id ↔ c.connected = true ∧ c.ended = false ∧ c.sequence = id := by
  unfold CSIController.connectedTo
  split_ifs with h
  · rw [Bool.and_eq_true, Bool.not_eq_true'] at h
    rw [Option.some_inj]
    exact ⟨fun hseq => ⟨h.1, h.2, hseq⟩, fun hall => hall.2.2⟩
  · refine ⟨fun hnone => (nomatch hnone), fun hall => absurd ?_ h⟩
    rw [hall.1, hall.2.1]
    rfl

namespace Deletion

/-- What a deletion may be in the middle of, given the controllers. -/
structure Safe (controllers : List CSIController) (d : Deletion) : Prop where
  /-- the sequence is removed when no instance of it is in the way -/
  removes : d.stage = .removing → ∀ c : CSIController, c ∈ controllers → c.connected = true →
    c.sequence = d.id → c.isOver d.force = true
  /-- no event is waited for that has been emitted -/
  listens : ∀ waits, d.stage = .waiting waits → ∀ ref, .listening ref ∈ waits →
    ∃ c ∈ ref.bind (controllers[·]?), c.ended = false
  /-- when `kill` has returned, only instances that have not ended are waited for -/
  completes : ∀ waits, d.stage = .waiting waits →
    (∀ instanceId ref, .killing instanceId ref ∉ waits) →
      ∃ c ∈ controllers, c.connected = true ∧ c.sequence = d.id ∧ c.ended = false

/-- Every instance that has not ended is waited for, and nothing else. -/
structure Awaits (controllers : List CSIController) (d : Deletion) (waits : List Wait) : Prop where
  force : d.force = true
  pending : ∃ w ∈ waits, w ≠ .ended
  awaited : ∀ ref c, controllers[ref]? = some c → CSIController.connectedTo c = some d.id →
    ∃ w ∈ waits, w.ref? = some ref
  waits : ∀ w ∈ waits, w ≠ .ended → ∃ ref c, w.ref? = some ref ∧ controllers[ref]? = some c ∧
    c.connected = true ∧ c.sequence = d.id ∧ (w = .listening (some ref) → c.ended = false)

def Sound (controllers : List CSIController) (d : Deletion) : Prop :=
  match d.stage with
  | .waiting waits => d.Awaits controllers waits
  | .removing => ∀ (ref : ℕ) (c : CSIController), controllers[ref]? = some c → c.connected = true →
      c.sequence = d.id → c.isOver d.force = true
  | .settled _ => True

theorem Sound.safe {controllers : List CSIController} {d : Deletion} (h : d.Sound controllers) :
    d.Safe controllers := by
  unfold Sound at h
  constructor
  · intro hstage c hc
    rw [hstage] at h
    obtain ⟨ref, hlt, hget⟩ := List.getElem_of_mem hc
    exact h ref c (hget ▸ List.getElem?_eq_getElem hlt)
  · intro waits hstage ref hmem
    rw [hstage] at h
    obtain ⟨ref', c, href, hc, -, -, hended⟩ := h.waits _ hmem (by simp)
    cases href
    exact ⟨c, hc, hended rfl⟩
  · intro waits hstage hkilled
    rw [hstage] at h
    obtain ⟨w, hmem, hpending⟩ := h.pending
    obtain ⟨ref, c, href, hc, hconnected, hsequence, hended⟩ := h.waits w hmem hpending
    have hlistening : w = .listening (some ref) := by
      cases w with
      | killing instanceId ref' => exact absurd hmem (hkilled instanceId ref')
      | listening ref' => exact congrArg Wait.listening href
      | ended => exact absurd rfl hpending
    exact ⟨c, List.mem_of_getElem? hc, hconnected, hsequence, hended hlistening⟩

end Deletion

/-! ## What a step does with a controller -/

def Action.onController (ref : ℕ) (c : CSIController) : Action → CSIController
  | .ping ref' true => if ref' = ref then { c with connected := true } else c
  | .terminated ref' => if ref' = ref then { c with terminated := true } else c
  | .ended ref' => if ref' = ref then { c with ended := c.ended || c.terminated } else c
  | _ => c

namespace HostState

variable {s : HostState}

theorem controllers_cleanup (id : String) :
    (s.cleanupRequiredStartupInstance id).controllers = s.controllers := by
  unfold cleanupRequiredStartupInstance
  split
  · split <;> rfl
  · rfl

variable {ref : ℕ}

theorem controllers_onPing (hc : s.controllers[ref]? = some c) :
    (s.onPing ref true).controllers =
      s.controllers.modify ref fun c => { c with connected := true } := by
  unfold onPing
  rw [hc]
  have hestablished := sameRegistry_established ((s.pushInstance c).updateController ref fun c =>
    { c with connected := true }) ref c
  refine hestablished.controllers.trans ?_
  show (s.pushInstance c).controllers.modify ref _ = _
  unfold pushInstance
  split <;> rfl

theorem controllers_onTerminated (hc : s.controllers[ref]? = some c)
    (hterminated : c.terminated = false) :
    (s.onTerminated ref).controllers =
      s.controllers.modify ref fun c => { c with terminated := true } := by
  unfold HostState.onTerminated
  rw [hc]
  dsimp only
  rw [if_neg (by simp [hterminated])]
  have hobserve := (sameInstances_observeFailure
    (s.updateController ref fun c => { c with terminated := true }) c.launch).controllers
  unfold handleDispatcherTerminatedEvent
  split
  · refine (sameInstances_handleExit _ c.id).controllers.trans ?_
    rw [controllers_cleanup]
    exact hobserve
  · exact hobserve

theorem controllers_onEnd (hc : s.controllers[ref]? = some c)
    (hend : (c.terminated && !c.ended) = true) :
    (s.onEnd ref).controllers = s.controllers.modify ref fun c => { c with ended := true } := by
  have hremove : ∀ s' : HostState, (s'.removeInstance ref c).controllers = s'.controllers := by
    intro s'
    unfold removeInstance
    split <;> rfl
  unfold HostState.onEnd
  rw [hc]
  dsimp only
  rw [if_pos hend, hremove]
  unfold handleDispatcherEndEvent
  split
  · show ((s.updateController ref _).cleanupRequiredStartupInstance c.id
      |>.sendInstanceInfo ref true).controllers = _
    rw [(sameRegistry_sendInstanceInfo _ ref true).controllers, controllers_cleanup]
    rfl
  · rfl

theorem controllers_next (a : Action) (hc : s.controllers[ref]? = some c) :
    (s.next a).controllers[ref]? = some (a.onController ref c) := by
  have hother : ∀ ref', s.controllers[ref']? = none → ref' ≠ ref := by
    rintro ref' hnone rfl
    rw [hc] at hnone
    cases hnone
  cases a with
  | startRunner | performStartup | initialized | initFails | ready | startFails | endSent | immediate
  | stop => rw [(s.sameInstances_next rfl).controllers, hc]; rfl
  | addSequence | deleteSequence | connection => exact hc
  | fetched i =>
    simp only [next]
    split
    · exact hc
    · rw [(sameRegistry_sendInstanceInfo _ _ false).controllers]
      exact hc
  | dispatched k =>
    simp only [next]
    split
    · exact hc
    · rename_i start hstart
      exact OrderedMap.getElem?_append_of_some hc
  | ping ref' accepted =>
    cases hc' : s.controllers[ref']? with
    | none =>
      have hne := hother ref' hc'
      have hsame : s.next (.ping ref' accepted) = s := by simp only [next, onPing, hc']
      rw [hsame, hc]
      cases accepted <;> simp [Action.onController, hne]
    | some c' =>
      cases accepted with
      | false =>
        have hsame : s.next (.ping ref' false) = s := by simp [next, onPing, hc']
        rw [hsame]
        exact hc
      | true =>
        show (s.onPing ref' true).controllers[ref]? = _
        rw [controllers_onPing hc', List.getElem?_modify, hc]
        simp only [Action.onController]
        split_ifs <;> rfl
  | terminated ref' =>
    cases hc' : s.controllers[ref']? with
    | none =>
      have hne := hother ref' hc'
      have hsame : s.next (.terminated ref') = s := by simp only [next, HostState.onTerminated, hc']
      rw [hsame, hc]
      simp [Action.onController, hne]
    | some c' =>
      cases hterminated : c'.terminated with
      | false =>
        show (s.onTerminated ref').controllers[ref]? = _
        rw [controllers_onTerminated hc' hterminated, List.getElem?_modify, hc]
        simp only [Action.onController]
        split_ifs <;> rfl
      | true =>
        have hsame : s.next (.terminated ref') = s := by
          simp [next, HostState.onTerminated, hc', hterminated]
        rw [hsame, hc, Action.onController]
        split_ifs with heq
        · subst heq
          cases hc.symm.trans hc'
          rw [← hterminated]
        · rfl
  | ended ref' =>
    cases hc' : s.controllers[ref']? with
    | none =>
      have hne := hother ref' hc'
      have hsame : s.next (.ended ref') = s := by simp only [next, HostState.onEnd, hc']
      rw [hsame, hc]
      simp [Action.onController, hne]
    | some c' =>
      cases hend : c'.terminated && !c'.ended with
      | true =>
        show (s.onEnd ref').controllers[ref]? = _
        rw [controllers_onEnd hc' hend, List.getElem?_modify, hc]
        simp only [Action.onController]
        split_ifs with heq
        · subst heq
          cases hc.symm.trans hc'
          rw [Bool.and_eq_true] at hend
          have hor : (c.ended || c.terminated) = true := by rw [hend.1, Bool.or_true]
          rw [hor]
          rfl
        · rfl
      | false =>
        have hsame : s.next (.ended ref') = s := by
          simp only [next, HostState.onEnd, hc', hend]
          rfl
        rw [hsame, hc, Action.onController]
        split_ifs with heq
        · subst heq
          cases hc.symm.trans hc'
          have hor : (c.ended || c.terminated) = c.ended := by
            cases hended : c.ended <;> cases hterminated : c.terminated <;> simp_all
          rw [hor]
        · rfl

theorem new_controllers_next (a : Action) (hnone : s.controllers[ref]? = none)
    (hc : (s.next a).controllers[ref]? = some c) :
    c.connected = false := by
  have hsame : ∀ s' : HostState, s'.controllers = s.controllers → s'.controllers[ref]? ≠ some c := by
    intro s' hs' hc'
    rw [hs', hnone] at hc'
    cases hc'
  have hmodify : ∀ (s' : HostState) (ref' : ℕ) (f : CSIController → CSIController),
      s'.controllers = s.controllers.modify ref' f → s'.controllers[ref]? ≠ some c := by
    intro s' ref' f hs' hc'
    rw [hs', List.getElem?_modify, hnone] at hc'
    cases hc'
  cases a with
  | startRunner | performStartup | initialized | initFails | ready | startFails | endSent | immediate
  | stop => exact absurd hc (hsame _ (s.sameInstances_next rfl).controllers)
  | addSequence | deleteSequence | connection => exact absurd hc (hsame _ rfl)
  | fetched i =>
    refine absurd hc (hsame _ ?_)
    simp only [next]
    split
    · rfl
    · exact (sameRegistry_sendInstanceInfo _ _ false).controllers
  | dispatched k =>
    simp only [next] at hc
    split at hc
    · exact absurd hc (hsame _ rfl)
    · rename_i start hstart
      replace hc : (s.controllers ++ [_])[ref]? = some c := hc
      rw [List.getElem?_append_right (List.getElem?_eq_none_iff.mp hnone)] at hc
      rw [List.mem_singleton.mp (List.mem_of_getElem? hc)]
  | ping ref' accepted =>
    cases hc' : s.controllers[ref']? with
    | none => exact absurd hc (hsame _ (by simp only [next, onPing, hc']))
    | some c' =>
      cases accepted with
      | true => exact absurd hc (hmodify _ ref' _ (controllers_onPing hc'))
      | false => exact absurd hc (hsame _ (by simp [next, onPing, hc']))
  | terminated ref' =>
    cases hc' : s.controllers[ref']? with
    | none => exact absurd hc (hsame _ (by simp only [next, HostState.onTerminated, hc']))
    | some c' =>
      cases hterminated : c'.terminated with
      | false => exact absurd hc (hmodify _ ref' _ (controllers_onTerminated hc' hterminated))
      | true =>
        exact absurd hc (hsame _ (by simp [next, HostState.onTerminated, hc', hterminated]))
  | ended ref' =>
    cases hc' : s.controllers[ref']? with
    | none => exact absurd hc (hsame _ (by simp only [next, HostState.onEnd, hc']))
    | some c' =>
      cases hend : c'.terminated && !c'.ended with
      | true => exact absurd hc (hmodify _ ref' _ (controllers_onEnd hc' hend))
      | false =>
        refine absurd hc (hsame _ ?_)
        simp only [next, HostState.onEnd, hc', hend]
        rfl

theorem emitsEnd_of_ended {a : Action} (hc : s.controllers[ref]? = some c)
    (hended : c.ended = false) (hnext : (a.onController ref c).ended = true) :
    s.emitsEnd a = some ref := by
  unfold Action.onController at hnext
  split at hnext
  · split_ifs at hnext <;> simp [hended] at hnext
  · split_ifs at hnext <;> simp [hended] at hnext
  · split_ifs at hnext with heq
    · subst heq
      have hterminated : c.terminated = true := by simpa [hended] using hnext
      simp [emitsEnd, hc, hended, hterminated]
    · rw [hended] at hnext
      cases hnext
  · rw [hended] at hnext
    cases hnext

theorem ended_of_emitsEnd {a : Action} (hc : s.controllers[ref]? = some c)
    (hemits : s.emitsEnd a = some ref) :
    (a.onController ref c).ended = true := by
  cases a with
  | ended ref' =>
    simp only [emitsEnd] at hemits
    split at hemits
    · cases hemits
    · rename_i c' hc'
      split_ifs at hemits with hend
      cases hemits
      cases hc.symm.trans hc'
      rw [Bool.and_eq_true] at hend
      simp [Action.onController, hend.1]
  | addSequence | deleteSequence | startRunner | performStartup | initialized | initFails
  | dispatched | ready | startFails | ping | terminated | fetched | endSent | immediate | stop
  | connection => cases hemits

end HostState

section OnController

variable {a : Action} {ref : ℕ} {c : CSIController}

theorem sequence_onController : (a.onController ref c).sequence = c.sequence := by
  unfold Action.onController
  split <;> (try split_ifs) <;> rfl

theorem connected_onController (hconnected : c.connected = true) :
    (a.onController ref c).connected = true := by
  unfold Action.onController
  split <;> (try split_ifs) <;> first | rfl | exact hconnected

theorem isOver_onController {force : Bool} (hover : c.isOver force = true) :
    (a.onController ref c).isOver force = true := by
  cases force with
  | true =>
    have hended : c.ended = true := hover
    show (a.onController ref c).ended = true
    unfold Action.onController
    split <;> (try split_ifs) <;> simp [hended]
  | false =>
    have hterminated : c.terminated = true := hover
    show (a.onController ref c).terminated = true
    unfold Action.onController
    split <;> (try split_ifs) <;> simp [hterminated]

theorem ping_of_connected (hconnected : c.connected = false)
    (hnext : (a.onController ref c).connected = true) : a = .ping ref true := by
  unfold Action.onController at hnext
  split at hnext
  · split_ifs at hnext with heq
    · rw [heq]
    · rw [hconnected] at hnext
      cases hnext
  · split_ifs at hnext <;> simp [hconnected] at hnext
  · split_ifs at hnext <;> simp [hconnected] at hnext
  · rw [hconnected] at hnext
    cases hnext

end OnController

/-! ## Steps of the instances -/

namespace Deletion

variable {h : HostState} {a : Action} {d : Deletion} {waits : List Wait}

/-- No instance becomes connected that would be in the way of a deletion. -/
def Undisturbed (h : HostState) (a : Action) (d : Deletion) : Prop :=
  ∀ ref, a = .ping ref true → ∀ c ∈ h.controllers[ref]?, c.connected = false → c.sequence = d.id →
    c.isOver d.force = false → d.stage.isSettled = true

theorem Undisturbed.connected (hping : Undisturbed h a d) {ref : ℕ} {c' : CSIController}
    (hc' : (h.next a).controllers[ref]? = some c') (hconnected : c'.connected = true)
    (hsequence : c'.sequence = d.id) (hpending : d.stage.isSettled = false) :
    ∃ c, h.controllers[ref]? = some c ∧ c' = a.onController ref c ∧ c.sequence = d.id ∧
      (c.connected = true ∨ c.isOver d.force = true) := by
  cases hc : h.controllers[ref]? with
  | none =>
    rw [HostState.new_controllers_next a hc hc'] at hconnected
    cases hconnected
  | some c =>
    have hnext := HostState.controllers_next a hc
    rw [hc', Option.some_inj] at hnext
    subst hnext
    rw [sequence_onController] at hsequence
    refine ⟨c, rfl, rfl, hsequence, ?_⟩
    cases hc' : c.connected with
    | true => exact .inl rfl
    | false =>
      refine .inr ?_
      by_contra hover
      have hsettled := hping ref (ping_of_connected hc' hconnected) c hc hc' hsequence
        (Bool.not_eq_true _ ▸ hover)
      rw [hpending] at hsettled
      cases hsettled

theorem Awaits.awaited_next (hwaits : d.Awaits h.controllers waits)
    (hstage : d.stage = .waiting waits) (hping : Undisturbed h a d) {ref : ℕ} {c' : CSIController}
    (hc' : (h.next a).controllers[ref]? = some c') (hconnected : c'.connectedTo = some d.id) :
    ∃ w ∈ waits, w.ref? = some ref ∧ h.emitsEnd a ≠ some ref := by
  obtain ⟨hon, hended', hsequence'⟩ := connectedTo_eq_some.mp hconnected
  obtain ⟨c, hc, rfl, hsequence, hbefore⟩ := hping.connected hc' hon hsequence'
    (by rw [hstage]; rfl)
  have hended : c.ended = false := by
    by_contra hended
    have hover : c.isOver true = true := by simpa [CSIController.isOver] using hended
    have hover' : (a.onController ref c).isOver true = true := isOver_onController hover
    rw [CSIController.isOver, if_pos rfl, hended'] at hover'
    cases hover'
  have hconnected : c.connected = true := by
    refine hbefore.resolve_right fun hover => ?_
    rw [hwaits.force, CSIController.isOver, if_pos rfl, hended] at hover
    cases hover
  obtain ⟨w, hw, href⟩ := hwaits.awaited ref c hc
    (connectedTo_eq_some.mpr ⟨hconnected, hended, hsequence⟩)
  refine ⟨w, hw, href, fun hemits => ?_⟩
  rw [HostState.ended_of_emitsEnd hc hemits] at hended'
  cases hended'

theorem Awaits.waits_next (hwaits : d.Awaits h.controllers waits) {w : Wait} (hw : w ∈ waits)
    (hpending : w ≠ .ended) (hemits : ∀ ref, h.emitsEnd a = some ref → w ≠ .listening (some ref)) :
    ∃ ref c, w.ref? = some ref ∧ (h.next a).controllers[ref]? = some c ∧ c.connected = true ∧
      c.sequence = d.id ∧ (w = .listening (some ref) → c.ended = false) := by
  obtain ⟨ref, c, href, hc, hconnected, hsequence, hended⟩ := hwaits.waits w hw hpending
  refine ⟨ref, _, href, HostState.controllers_next a hc, connected_onController hconnected,
    sequence_onController.trans hsequence, fun hlistening => ?_⟩
  by_contra hnow
  rw [Bool.not_eq_false] at hnow
  exact hemits ref (HostState.emitsEnd_of_ended hc (hended hlistening) hnow) hlistening

theorem onEnd_of_not_waiting (ref : ℕ) (hstage : ∀ waits, d.stage ≠ .waiting waits) :
    d.onEnd ref = d := by
  unfold onEnd
  split
  · rename_i waits hwaiting
    exact absurd hwaiting (hstage waits)
  · rfl

theorem Sound.removing_next (hd : d.Sound h.controllers) (hstage : d.stage = .removing)
    (hping : Undisturbed h a d) : d.Sound (h.next a).controllers := by
  unfold Sound at hd ⊢
  rw [hstage] at hd ⊢
  intro ref c' hc' hconnected hsequence
  obtain ⟨c, hc, rfl, hsequence', hbefore⟩ := hping.connected hc' hconnected hsequence
    (by rw [hstage]; rfl)
  apply isOver_onController
  exact hbefore.elim (fun hon => hd ref c hc hon hsequence') fun hover => hover

theorem Awaits.onEnd (hwaits : d.Awaits h.controllers waits) (hstage : d.stage = .waiting waits)
    (hping : Undisturbed h a d) {ref : ℕ} (hemits : h.emitsEnd a = some ref) :
    (d.onEnd ref).Sound (h.next a).controllers := by
  have hkept : ∀ ref' c', (h.next a).controllers[ref']? = some c' → c'.connectedTo = some d.id →
      ∃ w ∈ waits.map fun w => if w = Wait.listening (some ref) then .ended else w,
        w.ref? = some ref' := by
    intro ref' c' hc' hconnected
    obtain ⟨w, hw, href, hother⟩ := hwaits.awaited_next hstage hping hc' hconnected
    refine ⟨w, List.mem_map.mpr ⟨w, hw, if_neg ?_⟩, href⟩
    rintro rfl
    exact hother (hemits.trans href)
  unfold Deletion.onEnd
  rw [hstage]
  unfold Sound DeletionStage.ofWaits
  by_cases hall : ((waits.map fun w => if w = Wait.listening (some ref) then .ended else w).all
      (· = .ended)) = true
  · dsimp only
    rw [if_pos hall]
    intro ref' c' hc' hconnected hsequence
    rw [hwaits.force, CSIController.isOver, if_pos rfl]
    by_contra hended
    obtain ⟨w, hw, href⟩ := hkept ref' c' hc'
      (connectedTo_eq_some.mpr ⟨hconnected, Bool.not_eq_true _ ▸ hended, hsequence⟩)
    rw [List.all_eq_true] at hall
    rw [of_decide_eq_true (hall w hw)] at href
    cases href
  · dsimp only
    rw [if_neg hall]
    rw [List.all_eq_true, not_forall] at hall
    obtain ⟨w, hall⟩ := hall
    rw [Classical.not_imp, decide_eq_true_eq] at hall
    refine ⟨hwaits.force, ⟨w, hall⟩, hkept, fun w' hw' hpending => ?_⟩
    obtain ⟨w₀, hw₀, rfl⟩ := List.mem_map.mp hw'
    by_cases hlistening : w₀ = .listening (some ref)
    · exact absurd (if_pos hlistening) hpending
    · rw [if_neg hlistening] at hpending ⊢
      refine hwaits.waits_next hw₀ hpending fun ref' hemits' => ?_
      rw [← hemits.symm.trans hemits']
      exact hlistening

theorem Sound.next (hd : d.Sound h.controllers) (hping : Undisturbed h a d) :
    (match h.emitsEnd a with
      | none => d
      | some ref => d.onEnd ref).Sound (h.next a).controllers := by
  cases hstage : d.stage with
  | waiting waits =>
    have hwaits : d.Awaits h.controllers waits := by
      unfold Sound at hd
      rw [hstage] at hd
      exact hd
    cases hemits : h.emitsEnd a with
    | some ref => exact hwaits.onEnd hstage hping hemits
    | none =>
      show d.Sound _
      unfold Sound
      rw [hstage]
      refine ⟨hwaits.force, hwaits.pending, fun ref c' hc' hconnected => ?_, fun w hw hpending =>
        hwaits.waits_next hw hpending fun ref hsome => ?_⟩
      · obtain ⟨w, hw, href, -⟩ := hwaits.awaited_next hstage hping hc' hconnected
        exact ⟨w, hw, href⟩
      · rw [hemits] at hsome
        cases hsome
  | removing =>
    have hsound := hd.removing_next hstage hping
    split
    · exact hsound
    · rw [onEnd_of_not_waiting _ (by simp [hstage])]
      exact hsound
  | settled outcome =>
    have hsound : d.Sound (h.next a).controllers := by
      unfold Sound
      rw [hstage]
      trivial
    split
    · exact hsound
    · rw [onEnd_of_not_waiting _ (by simp [hstage])]
      exact hsound

end Deletion

/-! ## Runs -/

namespace DeletingHost

variable {s : DeletingHost}

section Careful

variable (s)

/-- The instances that are in the way of a deletion are listed by the sequence and stored under
their ids, and if there is one, then all that are listed run. -/
def Sees (id : String) (force : Bool) (instances : List String) : Prop :=
  ∀ ref < s.host.controllers.length, ∀ c ∈ s.host.controllers[ref]?,
    (c.connected && c.sequence = id && !c.isOver force) = true →
      c.id ∈ instances ∧ s.host.instancesStore.get? c.id = some ref ∧
        instances.all s.isRunning = true

/-- Only connected instances of the sequence are stored under the ids of a list. -/
def Owns (id : String) (instances : List String) : Prop :=
  ∀ instanceId ∈ instances, ∀ ref ∈ s.host.instancesStore.get? instanceId,
    ∀ c ∈ s.host.controllers[ref]?, c.connectedTo = some id

instance (id : String) (force : Bool) (instances : List String) :
    Decidable (s.Sees id force instances) := by
  unfold Sees
  infer_instance

instance (id : String) (instances : List String) : Decidable (s.Owns id instances) := by
  unfold Owns
  infer_instance

/-- The step does not take an instance out of the sight of a deletion, which sees the instances that are
in its way when it is called, and kills its own ones only: no other one becomes connected that would
be in its way, and when `kill` returns, the controller is still stored under its id. -/
def Careful : DeletionAction → Prop
  | .host (.ping ref true) => ∀ c ∈ s.host.controllers[ref]?, c.connected = false →
      ∀ d ∈ s.deletions, c.sequence = d.id → c.isOver d.force = false → d.stage.isSettled = true
  | .deleteSequence id force => ∀ instances ∈ s.host.sequenceStore.get? id,
      s.Sees id force instances ∧ (force = true → s.Owns id instances)
  | .killed d i => ∀ k ∈ s.killAt d i, s.host.instancesStore.get? k.2.1 = some k.2.2
  | _ => True

instance : (a : DeletionAction) → Decidable (s.Careful a)
  | .host (.ping ref true) => inferInstanceAs (Decidable (∀ c ∈ s.host.controllers[ref]?,
      c.connected = false → ∀ d ∈ s.deletions, c.sequence = d.id → c.isOver d.force = false →
        d.stage.isSettled = true))
  | .deleteSequence id force =>
    inferInstanceAs (Decidable (∀ instances ∈ s.host.sequenceStore.get? id,
      s.Sees id force instances ∧ (force = true → s.Owns id instances)))
  | .killed d i => inferInstanceAs (Decidable (∀ k ∈ s.killAt d i,
      s.host.instancesStore.get? k.2.1 = some k.2.2))
  | .host (.ping _ false) | .host (.addSequence _) | .host (.deleteSequence _)
  | .host (.startRunner _) | .host (.performStartup _ _ _) | .host (.initialized _)
  | .host (.initFails _) | .host (.dispatched _) | .host (.ready _) | .host (.startFails _)
  | .host (.terminated _) | .host (.ended _) | .host (.fetched _) | .host (.endSent _)
  | .host .immediate | .host .stop | .host (.connection _) | .finalizes _ | .killFails _ _
  | .removed _ | .removeFails _ => .isTrue trivial

end Careful

structure Inv (s : DeletingHost) : Prop where
  registered : s.host.Registered
  sound : ∀ d ∈ s.deletions, d.Sound s.host.controllers

theorem inv_new : new.Inv := ⟨HostState.registered_new, fun _ hd => absurd hd (List.not_mem_nil)⟩

theorem Inv.host (h : s.Inv) (a : Action) (hok : s.Careful (.host a)) : (s.next (.host a)).Inv := by
  have hundisturbed : ∀ d ∈ s.deletions, Deletion.Undisturbed s.host a d := by
    rintro d hd ref rfl c hc hconnected hsequence hover
    exact hok c hc hconnected d hd hsequence hover
  by_cases hdelete : ∃ id, a = .deleteSequence id
  · obtain ⟨id, rfl⟩ := hdelete
    exact h
  · have hnext : s.next (.host a) =
        { s with
          host := s.host.next a
          deletions :=
            match s.host.emitsEnd a with
            | none => s.deletions
            | some ref => s.deletions.map (Deletion.onEnd ref) } := by
      cases a with
      | deleteSequence id => exact absurd ⟨id, rfl⟩ hdelete
      | addSequence | startRunner | performStartup | initialized | initFails | dispatched | ready
      | startFails | ping | terminated | ended | fetched | endSent | immediate | stop
      | connection => rfl
    rw [hnext]
    refine ⟨h.registered.next a, fun d hd => ?_⟩
    have hsound := fun d hd => (h.sound d hd).next (hundisturbed d hd)
    cases hemits : s.host.emitsEnd a with
    | none =>
      rw [hemits] at hd hsound
      exact hsound d hd
    | some ref =>
      rw [hemits] at hd hsound
      obtain ⟨d₀, hd₀, rfl⟩ := List.mem_map.mp hd
      exact hsound d₀ hd₀

theorem Inv.setStage (h : s.Inv) (d : ℕ) (stage : DeletionStage)
    (hstage : ∀ deletion ∈ s.deletions[d]?,
      ({ deletion with stage := stage } : Deletion).Sound s.host.controllers) :
    (s.setStage d stage).Inv := by
  refine ⟨h.registered, fun d' hd' => ?_⟩
  obtain ⟨k, hk, hget⟩ := List.getElem_of_mem hd'
  have hget' : (s.deletions.modify d fun deletion => { deletion with stage := stage })[k]? =
      some d' := by
    rw [← hget]
    exact List.getElem?_eq_getElem hk
  rw [List.getElem?_modify] at hget'
  cases hd : s.deletions[k]? with
  | none =>
    rw [hd] at hget'
    cases hget'
  | some d₀ =>
    rw [hd] at hget'
    replace hget' := Option.some_inj.mp hget'
    split_ifs at hget' with heq
    · subst heq
      rw [← hget']
      exact hstage d₀ hd
    · rw [← hget']
      exact h.sound d₀ (List.mem_of_getElem? hd)

theorem Inv.call (h : s.Inv) {s' : DeletingHost} {d : Deletion} (hhost : s'.host = s.host)
    (hdeletions : s'.deletions = s.deletions ++ [d]) (hd : d.Sound s.host.controllers) :
    s'.Inv := by
  refine ⟨hhost ▸ h.registered, fun d' hd' => ?_⟩
  rw [hdeletions, List.mem_append, List.mem_singleton] at hd'
  rw [hhost]
  obtain hd' | rfl := hd'
  · exact h.sound d' hd'
  · exact hd

theorem Inv.deleteSequence (h : s.Inv) (id : String) (force : Bool)
    (hok : s.Careful (.deleteSequence id force)) : (s.deleteSequence id force).Inv := by
  unfold DeletingHost.deleteSequence
  cases hget : s.host.sequenceStore.get? id with
  | none => exact h.call rfl rfl trivial
  | some instances =>
    obtain ⟨hlisted, hforced⟩ := hok instances hget
    have hinWay : ∀ ref c, s.host.controllers[ref]? = some c → c.connected = true →
        c.sequence = id → c.isOver force = false → c.id ∈ instances ∧
          s.host.instancesStore.get? c.id = some ref ∧ instances.all s.isRunning = true :=
      fun ref c hc hconnected hsequence hover =>
        hlisted ref (List.getElem?_eq_some_iff.mp hc).1 c hc (by simp [hconnected, hsequence, hover])
    dsimp only
    by_cases hrun : (!instances.isEmpty && instances.all s.isRunning) = true
    · rw [if_pos hrun]
      rw [Bool.and_eq_true, Bool.not_eq_true', List.all_eq_true] at hrun
      cases force with
      | false => exact h.call rfl rfl trivial
      | true =>
        refine h.call rfl rfl ⟨rfl, ?_, fun ref c hc hconnected => ?_, fun w hw _ => ?_⟩
        · -- the list is not empty, and what is listed is stored
          obtain ⟨instanceId, hmem⟩ := List.exists_mem_of_ne_nil instances
            (by simpa using hrun.1)
          obtain ⟨ref, href, -⟩ := Option.any_eq_true .. |>.mp (hrun.2 instanceId hmem)
          exact ⟨.killing instanceId ref,
            List.mem_filterMap.mpr ⟨instanceId, hmem, by rw [href]; rfl⟩, by simp⟩
        · obtain ⟨hon, hended, hsequence⟩ := connectedTo_eq_some.mp hconnected
          obtain ⟨hmem, hstored, -⟩ := hinWay ref c hc hon hsequence hended
          exact ⟨.killing c.id ref,
            List.mem_filterMap.mpr ⟨c.id, hmem, by rw [hstored]; rfl⟩, rfl⟩
        · obtain ⟨instanceId, hmem, hw⟩ := List.mem_filterMap.mp hw
          obtain ⟨ref, href, rfl⟩ := Option.map_eq_some_iff.mp hw
          obtain ⟨c, hc, -⟩ := h.registered instanceId ref href
          obtain ⟨hon, -, hsequence⟩ :=
            connectedTo_eq_some.mp (hforced rfl instanceId hmem ref href c hc)
          exact ⟨ref, c, rfl, hc, hon, hsequence, fun hlistening => (nomatch hlistening)⟩
    · rw [if_neg hrun]
      refine h.call rfl rfl fun ref c hc hconnected hsequence => ?_
      by_contra hover
      obtain ⟨hmem, -, hall⟩ := hinWay ref c hc hconnected hsequence (Bool.not_eq_true _ ▸ hover)
      refine hrun ?_
      rw [hall, Bool.and_true, Bool.not_eq_true', List.isEmpty_eq_false_iff]
      exact List.ne_nil_of_mem hmem

theorem killAt_eq_some {d i : ℕ} {k : List Wait × String × ℕ} (hk : s.killAt d i = some k) :
    ∃ deletion, s.deletions[d]? = some deletion ∧ deletion.stage = .waiting k.1 ∧
      k.1[i]? = some (.killing k.2.1 k.2.2) := by
  unfold killAt at hk
  split at hk
  · rename_i waits hwaits
    obtain ⟨deletion, hd, hstage⟩ := Option.map_eq_some_iff.mp hwaits
    split at hk
    · rename_i instanceId ref hw
      cases hk
      exact ⟨deletion, hd, hstage, hw⟩
    · cases hk
  · cases hk

theorem Inv.killed (h : s.Inv) (d i : ℕ) (hok : s.Careful (.killed d i)) :
    (s.next (.killed d i)).Inv := by
  simp only [DeletingHost.next]
  cases hk : s.killAt d i with
  | none => exact h
  | some k =>
    obtain ⟨waits, instanceId, ref⟩ := k
    obtain ⟨deletion, hd, hstage, hw⟩ := killAt_eq_some hk
    have hstored : s.host.instancesStore.get? instanceId = some ref := hok _ hk
    have hwaits : deletion.Awaits s.host.controllers waits := by
      have hsound := h.sound deletion (List.mem_of_getElem? hd)
      unfold Deletion.Sound at hsound
      rw [hstage] at hsound
      exact hsound
    refine h.setStage d _ fun deletion' hd' => ?_
    cases hd.symm.trans hd'
    dsimp only at hw
    show Deletion.Awaits _ _ _
    rw [hstored]
    have hlt := (List.getElem?_eq_some_iff.mp hw).1
    refine ⟨hwaits.force, ⟨.listening (some ref), List.mem_set hlt _, by simp⟩,
      fun ref' c hc hconnected => ?_, fun w hmem hpending => ?_⟩
    · obtain ⟨w, hmem, href⟩ := hwaits.awaited ref' c hc hconnected
      obtain ⟨j, hj⟩ := List.getElem?_of_mem hmem
      by_cases hij : i = j
      · subst hij
        cases hw.symm.trans hj
        exact ⟨.listening (some ref), List.mem_set hlt _, href⟩
      · exact ⟨w, List.mem_of_getElem? (by rw [List.getElem?_set_ne hij]; exact hj), href⟩
    · obtain hold | rfl := List.mem_or_eq_of_mem_set hmem
      · exact hwaits.waits w hold hpending
      · obtain ⟨ref', c, href', hc, hconnected, hsequence, -⟩ :=
          hwaits.waits _ (List.mem_of_getElem? hw) (by simp)
        cases href'
        obtain ⟨c', hc', -, hended⟩ := h.registered instanceId ref hstored
        cases hc.symm.trans hc'
        exact ⟨ref, c, rfl, hc, hconnected, hsequence, fun _ => hended⟩

theorem Inv.next (h : s.Inv) (a : DeletionAction) (hok : s.Careful a) : (s.next a).Inv := by
  cases a with
  | host a => exact h.host a hok
  | deleteSequence id force => exact h.deleteSequence id force hok
  | killed d i => exact h.killed d i hok
  | finalizes ref =>
    simp only [DeletingHost.next]
    split
    · exact h
    · split_ifs
      · exact ⟨h.registered, h.sound⟩
      · exact h
  | killFails d i =>
    simp only [DeletingHost.next]
    split
    · exact h
    · exact h.setStage d _ fun _ _ => trivial
  | removed d =>
    simp only [DeletingHost.next]
    split
    · exact h
    · rename_i deletion hdeletion
      have hdelete :
          ({ s with host := s.host.next (.deleteSequence deletion.id) } : DeletingHost).Inv :=
        ⟨h.registered, h.sound⟩
      exact hdelete.setStage d _ fun _ _ => trivial
  | removeFails d =>
    simp only [DeletingHost.next]
    split
    · exact h
    · exact h.setStage d _ fun _ _ => trivial

/-- An instance of a sequence is started and connects. -/
def connects (k : ℕ) (instanceId : String) : List DeletionAction :=
  [.host (.startRunner ⟨instanceId, "sequence", none⟩), .host (.initialized k),
    .host (.dispatched k), .host (.ping k true)]

/-- One of two instances has terminated and is being finalized. -/
def finalized : List DeletionAction :=
  [.host (.addSequence "sequence")] ++ connects 0 "a" ++ connects 1 "b" ++
    [.host (.terminated 0), .finalizes 0]

end DeletingHost

end TransformHub.Host.Instances

import TransformHub.Host.SequenceInstances

/-!
# Instances reported to the Manager

What the Manager is sent about an instance: that it is connected, once for each `ping`, and in the
end that it is gone.
-/

namespace TransformHub.Host.Instances

/-! ## The messages about an instance -/

/-- The messages about an instance say that it is connected, and after that once that it is gone if
it has ended. There may be none. -/
def AccountedFor (ended : Bool) (messages : List Bool) : Prop :=
  messages = [] ∨ ∃ n, messages = List.replicate (n + 1) false ++ if ended then [true] else []

namespace AccountedFor

variable {messages : List Bool} {ended : Bool}

theorem connected_iff (h : AccountedFor ended messages) :
    AccountedFor ended (messages ++ [false]) ↔ ended = false := by
  cases ended with
  | false =>
    refine iff_true_intro (.inr ?_) |>.trans (iff_of_true trivial rfl)
    rcases h with rfl | ⟨n, rfl⟩
    · exact ⟨0, rfl⟩
    · exact ⟨n + 1, by simp [List.replicate_succ']⟩
  | true =>
    refine iff_of_false ?_ Bool.noConfusion
    rintro (hnil | ⟨n, heq⟩)
    · simp at hnil
    · have hlast := congrArg List.getLast? heq
      simp at hlast

theorem gone_iff (h : AccountedFor false messages) :
    AccountedFor true (messages ++ [true]) ↔ messages ≠ [] := by
  rcases h with rfl | ⟨n, rfl⟩
  · refine iff_of_false ?_ fun hne => hne rfl
    rintro (hnil | ⟨n, heq⟩)
    · cases hnil
    · simp [List.replicate_succ] at heq
  · refine iff_of_true (.inr ⟨n, by simp⟩) (by simp)

theorem silent_iff (h : AccountedFor false messages) :
    AccountedFor true messages ↔ messages = [] := by
  rcases h with rfl | ⟨n, rfl⟩
  · exact iff_of_true (.inl rfl) rfl
  · refine iff_of_false ?_ (by simp)
    rintro (hnil | ⟨m, heq⟩)
    · simp at hnil
    · have hlast := congrArg List.getLast? heq
      simp [List.replicate_succ'] at hlast

end AccountedFor

/-- The Manager is connected after the step if it was before. -/
def Action.staysConnected : Action → Bool
  | .connection connected => connected
  | _ => true

namespace HostState

variable {s s' : HostState}

variable (s) in
/-- What the Manager has been told about a controller: for each message whether it said `GONE`. -/
def messages (ref : ℕ) : List Bool := (s.sent.filter fun info => info.controller = ref).map (·.gone)

/-- The Manager has been told about every instance: what has been sent about it is right for an
instance that has ended, or has not. -/
def Accounted (s : HostState) : Prop :=
  ∀ ref c, s.controllers[ref]? = some c → AccountedFor c.ended (s.messages ref)

/-- The Manager is connected, and all it has been told is about controllers. -/
structure Reports (s : HostState) : Prop where
  connected : s.connected = true
  sent : ∀ info ∈ s.sent, info.controller < s.controllers.length

theorem SameInstances.accounted_iff (h : s.SameInstances s') : s'.Accounted ↔ s.Accounted := by
  unfold Accounted messages
  rw [h.sent, h.controllers]

theorem SameInstances.reports (h : s.SameInstances s') (hs : s.Reports) : s'.Reports where
  connected := h.connected.trans hs.connected
  sent := by
    rw [h.sent, h.controllers]
    exact hs.sent

/-! ## Sending -/

variable {c : CSIController}

theorem Reports.sendInstanceInfo_eq (h : s.Reports) {ref : ℕ} (hc : s.controllers[ref]? = some c)
    (gone : Bool) :
    s.sendInstanceInfo ref gone = { s with sent := s.sent ++ [⟨ref, c.id, c.sequence, gone⟩] } := by
  unfold sendInstanceInfo
  rw [hc]
  exact if_pos h.connected

theorem Reports.sendInstanceInfo (h : s.Reports) (ref : ℕ) (gone : Bool) :
    (s.sendInstanceInfo ref gone).Reports := by
  cases hc : s.controllers[ref]? with
  | none =>
    have hsame : s.sendInstanceInfo ref gone = s := by simp only [HostState.sendInstanceInfo, hc]
    rw [hsame]
    exact h
  | some c =>
    rw [h.sendInstanceInfo_eq hc]
    refine ⟨h.connected, fun info hinfo => ?_⟩
    rcases List.mem_append.mp hinfo with hinfo | hinfo
    · exact h.sent info hinfo
    · cases List.mem_singleton.mp hinfo
      exact (List.getElem?_eq_some_iff.mp hc).1

theorem Reports.messages_sendInstanceInfo (h : s.Reports) {ref : ℕ}
    (hc : s.controllers[ref]? = some c) (gone : Bool) (ref' : ℕ) :
    (s.sendInstanceInfo ref gone).messages ref' =
      s.messages ref' ++ if ref' = ref then [gone] else [] := by
  rw [h.sendInstanceInfo_eq hc, messages, messages, List.filter_append, List.map_append]
  congr 1
  split_ifs with href
  · subst href
    simp
  · simp [Ne.symm href]

theorem messages_eq_nil (h : s.Reports) {ref : ℕ} (href : s.controllers.length ≤ ref) :
    s.messages ref = [] := by
  rw [messages, List.map_eq_nil_iff, List.filter_eq_nil_iff]
  intro info hinfo
  have hlt := h.sent info hinfo
  simp only [decide_eq_true_eq]
  omega

theorem accounted_updateController {ref : ℕ} {f : CSIController → CSIController}
    (hf : ∀ c, (f c).ended = c.ended) (hsent : s'.sent = s.sent)
    (hcontrollers : s'.controllers = s.controllers.modify ref f) : s'.Accounted ↔ s.Accounted := by
  have hended : ∀ ref' : ℕ, (s'.controllers[ref']?).map CSIController.ended =
      (s.controllers[ref']?).map CSIController.ended := by
    intro ref'
    rw [hcontrollers, List.getElem?_modify]
    cases s.controllers[ref']? with
    | none => rfl
    | some c =>
      show some (if ref = ref' then f c else c).ended = some c.ended
      split_ifs
      · rw [hf]
      · rfl
  have hboth : ∀ {t t' : HostState}, t'.sent = t.sent →
      (∀ ref' : ℕ, (t'.controllers[ref']?).map CSIController.ended =
        (t.controllers[ref']?).map CSIController.ended) → t.Accounted → t'.Accounted := by
    intro t t' hsent hended h ref' c hc
    have hmap := hended ref'
    rw [hc, Option.map_some] at hmap
    obtain ⟨c', hc', hcc⟩ := Option.map_eq_some_iff.mp hmap.symm
    rw [← hcc, messages, hsent]
    exact h ref' c' hc'
  exact ⟨hboth hsent.symm fun ref' => (hended ref').symm, hboth hsent hended⟩

theorem Accounted.sendInstanceInfo_iff (h : s.Accounted) (hr : s.Reports) {ref : ℕ}
    (hc : s.controllers[ref]? = some c) :
    (s.sendInstanceInfo ref false).Accounted ↔ c.ended = false := by
  have hcontrollers : (s.sendInstanceInfo ref false).controllers = s.controllers :=
    (s.sameRegistry_sendInstanceInfo ref false).controllers
  constructor
  · intro hsent
    have hself := hsent ref c (hcontrollers ▸ hc)
    rw [hr.messages_sendInstanceInfo hc, if_pos rfl] at hself
    exact (h ref c hc).connected_iff.mp hself
  · intro hended ref' c' hc'
    rw [hcontrollers] at hc'
    rw [hr.messages_sendInstanceInfo hc]
    split_ifs with href
    · subst href
      cases hc.symm.trans hc'
      exact (h ref' c hc).connected_iff.mpr hended
    · rw [List.append_nil]
      exact h ref' c' hc'

/-! ## Steps -/

theorem Reports.create (h : s.Reports) (start : Start) : (s.createCSIController start).Reports where
  connected := h.connected
  sent := fun info hinfo => by
    have hlt := h.sent info hinfo
    show info.controller < (s.controllers ++ [_]).length
    rw [List.length_append, List.length_singleton]
    omega

theorem Accounted.create (h : s.Accounted) (hr : s.Reports) (start : Start) :
    (s.createCSIController start).Accounted := by
  intro ref c hc
  by_cases hlt : ref < s.controllers.length
  · have hold : (s.createCSIController start).controllers[ref]? = s.controllers[ref]? :=
      List.getElem?_append_left hlt
    exact h ref c (hold.symm.trans hc)
  · left
    exact messages_eq_nil hr (Nat.le_of_not_lt hlt)

variable (s) in
/-- The stores after a `ping` that is accepted. -/
def acceptPing (ref : ℕ) (c : CSIController) : HostState :=
  (s.pushInstance c).updateController ref fun c => { c with connected := true }

theorem onPing_eq {ref : ℕ} (hc : s.controllers[ref]? = some c) :
    s.onPing ref true =
      ((s.acceptPing ref c).handleDispatcherEstablishedEvent ref c).resolveStarts c.id := by
  unfold onPing
  rw [hc]
  rfl

theorem acceptPing_eq (ref : ℕ) (c : CSIController) :
    (s.acceptPing ref c).sent = s.sent ∧ (s.acceptPing ref c).connected = s.connected ∧
      ((s.acceptPing ref c).controllers =
        s.controllers.modify ref fun c => { c with connected := true }) ∧
      (s.acceptPing ref c).sequenceStore.has c.sequence = s.sequenceStore.has c.sequence := by
  unfold acceptPing pushInstance
  cases hget : s.sequenceStore.get? c.sequence with
  | none => exact ⟨rfl, rfl, rfl, rfl⟩
  | some ids =>
    refine ⟨rfl, rfl, rfl, ?_⟩
    show (s.sequenceStore.set c.sequence _).has c.sequence = _
    rw [OrderedMap.has, OrderedMap.has, OrderedMap.get?_set_self, hget]
    rfl

theorem Accounted.established_iff (h : s.Accounted) (hr : s.Reports) {ref : ℕ}
    {c c' : CSIController}
    (hc : s.controllers[ref]? = some c') :
    (s.handleDispatcherEstablishedEvent ref c).Reports ∧
      ((s.handleDispatcherEstablishedEvent ref c).Accounted ↔
        (s.sequenceStore.has c.sequence = true → c'.ended = false)) := by
  rw [established_eq]
  split_ifs with hfetch
  · rw [Bool.and_eq_true, Bool.not_eq_true'] at hfetch
    refine ⟨⟨hr.connected, hr.sent⟩, iff_of_true h fun hseq => ?_⟩
    rw [hfetch.1] at hseq
    cases hseq
  · rw [hr.connected, Bool.and_true, Bool.not_eq_true', Bool.not_eq_false] at hfetch
    have hr' : ({ s with instancesStore := s.establishedStore c.id } : HostState).Reports :=
      ⟨hr.connected, hr.sent⟩
    have h' : ({ s with instancesStore := s.establishedStore c.id } : HostState).Accounted := h
    refine ⟨hr'.sendInstanceInfo ref false, ?_⟩
    exact (h'.sendInstanceInfo_iff hr' hc).trans
      ⟨fun hended _ => hended, fun hended => hended hfetch⟩

theorem Accounted.onPing_iff (h : s.Accounted) (hr : s.Reports) {ref : ℕ}
    (hc : s.controllers[ref]? = some c) :
    (s.onPing ref true).Reports ∧ ((s.onPing ref true).Accounted ↔
      (s.sequenceStore.has c.sequence = true → c.ended = false)) := by
  obtain ⟨hsent, hconnected, hcontrollers, hhas⟩ := s.acceptPing_eq ref c
  have hr₁ : (s.acceptPing ref c).Reports := by
    refine ⟨hconnected.trans hr.connected, ?_⟩
    rw [hsent, hcontrollers, List.length_modify]
    exact hr.sent
  have h₁ : (s.acceptPing ref c).Accounted := by
    refine (accounted_updateController ?_ hsent hcontrollers).mpr h
    exact fun _ => rfl
  have hc₁ : (s.acceptPing ref c).controllers[ref]? = some { c with connected := true } := by
    rw [hcontrollers, List.getElem?_modify_eq, hc]
    rfl
  obtain ⟨hr₂, h₂⟩ := h₁.established_iff (c := c) hr₁ hc₁
  rw [hhas] at h₂
  rw [onPing_eq hc]
  have hresolve := ((s.acceptPing ref c).handleDispatcherEstablishedEvent ref
    c).sameInstances_resolveStarts c.id
  exact ⟨hresolve.reports hr₂, hresolve.accounted_iff.trans h₂⟩

theorem onTerminated_accounted (hr : s.Reports) (ref : ℕ) :
    (s.onTerminated ref).Reports ∧ ((s.onTerminated ref).Accounted ↔ s.Accounted) := by
  unfold onTerminated
  cases hc : s.controllers[ref]? with
  | none => exact ⟨hr, Iff.rfl⟩
  | some c =>
    dsimp only
    split_ifs
    · exact ⟨hr, Iff.rfl⟩
    · have hr₁ : (s.updateController ref fun c => { c with terminated := true }).Reports := by
        refine ⟨hr.connected, ?_⟩
        show ∀ info ∈ s.sent, info.controller < (s.controllers.modify ref _).length
        rw [List.length_modify]
        exact hr.sent
      have h₁ : (s.updateController ref fun c => { c with terminated := true }).Accounted ↔
          s.Accounted :=
        accounted_updateController (f := fun c => { c with terminated := true }) (fun _ => rfl) rfl rfl
      have hobserve := sameInstances_observeFailure
        (s.updateController ref fun c => { c with terminated := true }) c.launch
      have hr₂ := hobserve.reports hr₁
      have h₂ := hobserve.accounted_iff.trans h₁
      unfold handleDispatcherTerminatedEvent
      split_ifs with hstored
      · obtain ⟨store, hcleanup, -⟩ := cleanup_eq hstored
        have hexit := sameInstances_handleExit (((s.updateController ref fun c =>
          { c with terminated := true }).observeFailure
            c.launch).cleanupRequiredStartupInstance c.id) c.id
        rw [hcleanup] at hexit ⊢
        exact ⟨hexit.reports ⟨hr₂.connected, hr₂.sent⟩, hexit.accounted_iff.trans h₂⟩
      · exact ⟨hr₂, h₂⟩

theorem sent_removeInstance (ref : ℕ) (c : CSIController) :
    (s.removeInstance ref c).sent = s.sent ∧ (s.removeInstance ref c).controllers = s.controllers ∧
      (s.removeInstance ref c).connected = s.connected := by
  unfold removeInstance
  split_ifs <;> exact ⟨rfl, rfl, rfl⟩

theorem Accounted.updateController_ended (h : s.Accounted) {ref : ℕ}
    (hc : s.controllers[ref]? = some c)
    (hcontrollers : s'.controllers = s.controllers.modify ref fun c => { c with ended := true })
    {ms : List Bool} (hself : s'.messages ref = s.messages ref ++ ms)
    (hothers : ∀ ref', ref' ≠ ref → s'.messages ref' = s.messages ref') :
    s'.Accounted ↔ AccountedFor true (s.messages ref ++ ms) := by
  constructor
  · intro h'
    rw [← hself]
    refine h' ref { c with ended := true } ?_
    rw [hcontrollers, List.getElem?_modify_eq, hc]
    rfl
  · intro haccounted ref' c' hc'
    by_cases href : ref' = ref
    · subst href
      rw [hcontrollers, List.getElem?_modify_eq, hc] at hc'
      cases hc'
      rw [hself]
      exact haccounted
    · rw [hcontrollers, List.getElem?_modify_ne _ _ (Ne.symm href)] at hc'
      rw [hothers ref' href]
      exact h ref' c' hc'

theorem Accounted.onEnd_iff (h : s.Accounted) (hr : s.Reports) {ref : ℕ}
    (hc : s.controllers[ref]? = some c) (hend : (c.terminated && !c.ended) = true) :
    (s.onEnd ref).Reports ∧ ((s.onEnd ref).Accounted ↔
      (s.instancesStore.get? c.id = some ref ↔ s.messages ref ≠ [])) := by
  have hended : c.ended = false := by
    rw [Bool.and_eq_true, Bool.not_eq_true'] at hend
    exact hend.2
  have hfor := h ref c hc
  rw [hended] at hfor
  unfold onEnd
  rw [hc]
  dsimp only
  rw [if_pos hend]
  obtain ⟨s₁, hs₁⟩ : ∃ s₁ : HostState, s₁ = s.updateController ref fun c => { c with ended := true } :=
    ⟨_, rfl⟩
  have hr₁ : s₁.Reports := by
    rw [hs₁]
    refine ⟨hr.connected, ?_⟩
    show ∀ info ∈ s.sent, info.controller < (s.controllers.modify ref _).length
    rw [List.length_modify]
    exact hr.sent
  have hcontrollers : s₁.controllers =
      s.controllers.modify ref fun c => { c with ended := true } := by rw [hs₁]; rfl
  have hsent : s₁.sent = s.sent := by rw [hs₁]; rfl
  have hstore : s₁.instancesStore = s.instancesStore := by rw [hs₁]; rfl
  rw [← hs₁]
  by_cases hstored : s.instancesStore.get? c.id = some ref
  · -- the Manager is told
    have hc₁ : s₁.controllers[ref]? = some { c with ended := true } := by
      rw [hcontrollers, List.getElem?_modify_eq, hc]
      rfl
    obtain ⟨store, hcleanup, -⟩ := cleanup_eq (s := s₁) (hstore ▸ hstored)
    have hr₂ : ({ s₁ with instancesStore := store } : HostState).Reports := ⟨hr₁.connected, hr₁.sent⟩
    have hc₂ : ({ s₁ with instancesStore := store } : HostState).controllers[ref]? =
        some { c with ended := true } := hc₁
    have hr₃ := hr₂.sendInstanceInfo ref true
    have hsend := sameRegistry_sendInstanceInfo { s₁ with instancesStore := store } ref true
    obtain ⟨hsent', hcontrollers', hconnected'⟩ := sent_removeInstance
      (s := s₁.handleDispatcherEndEvent ref c) ref c
    have hevent : (s₁.handleDispatcherEndEvent ref c).sent =
          (HostState.sendInstanceInfo { s₁ with instancesStore := store } ref true).sent ∧
        (s₁.handleDispatcherEndEvent ref c).controllers = s₁.controllers ∧
        (s₁.handleDispatcherEndEvent ref c).connected =
          (HostState.sendInstanceInfo { s₁ with instancesStore := store } ref true).connected := by
      unfold handleDispatcherEndEvent
      rw [hstore, if_pos hstored, hcleanup]
      exact ⟨rfl, hsend.controllers, rfl⟩
    have hmessages : ∀ ref', ((s₁.handleDispatcherEndEvent ref c).removeInstance ref c).messages ref' =
        s.messages ref' ++ if ref' = ref then [true] else [] := by
      intro ref'
      have htold := hr₂.messages_sendInstanceInfo hc₂ true ref'
      rw [messages, hsent', hevent.1]
      rw [messages] at htold
      rw [htold, messages, messages]
      show _ = (s.sent.filter _).map _ ++ _
      rw [← hsent]
    refine ⟨⟨?_, ?_⟩, ?_⟩
    · exact (hconnected'.trans hevent.2.2).trans hr₃.connected
    · rw [hsent', hcontrollers', hevent.1, hevent.2.1]
      exact fun info hinfo => hsend.controllers ▸ hr₃.sent info hinfo
    · rw [h.updateController_ended hc ((hcontrollers'.trans hevent.2.1).trans hcontrollers)
        ((hmessages ref).trans (by rw [if_pos rfl])) fun ref' href => ?_, hfor.gone_iff]
      · simp [hstored]
      · rw [hmessages ref', if_neg href, List.append_nil]
  · have hevent : s₁.handleDispatcherEndEvent ref c = s₁ := by
      unfold handleDispatcherEndEvent
      rw [hstore, if_neg hstored]
    have hremove : s₁.removeInstance ref c = s₁ := by
      unfold removeInstance
      rw [hstore, if_neg hstored]
    rw [hevent, hremove]
    refine ⟨hr₁, ?_⟩
    have hmessages : ∀ ref', s₁.messages ref' = s.messages ref' := by
      intro ref'
      rw [messages, messages, hsent]
    rw [h.updateController_ended hc hcontrollers
      ((hmessages ref).trans (List.append_nil _).symm) fun ref' _ => hmessages ref', List.append_nil,
      hfor.silent_iff]
    simp [hstored]

/-! ## Runs -/

variable (s) in
/-- The step keeps the account: the Manager is told that an instance is connected only before it
ends, and an instance that ends is in the store exactly if the Manager has been told of it. -/
def KeepsAccount : Action → Prop
  | .ping ref true => ∀ c ∈ s.controllers[ref]?, s.sequenceStore.has c.sequence = true →
      c.ended = false
  | .fetched i => ∀ ref ∈ s.fetching[i]?, ∀ c ∈ s.controllers[ref]?, c.ended = false
  | .ended ref => ∀ c ∈ s.controllers[ref]?, (c.terminated && !c.ended) = true →
      (s.instancesStore.get? c.id = some ref ↔ s.messages ref ≠ [])
  | _ => True

theorem Accounted.next (h : s.Accounted) (hr : s.Reports) {a : Action}
    (ha : a.staysConnected = true) :
    (s.next a).Reports ∧ ((s.next a).Accounted ↔ s.KeepsAccount a) := by
  have hsame : ∀ s' : HostState, s.SameInstances s' → s'.Reports ∧ (s'.Accounted ↔ True) :=
    fun s' hs' => ⟨hs'.reports hr, iff_true_intro (hs'.accounted_iff.mpr h)⟩
  cases a with
  | addSequence | deleteSequence => exact ⟨⟨hr.connected, hr.sent⟩, iff_true_intro h⟩
  | startRunner | performStartup | initialized | initFails | ready | startFails | endSent | immediate
  | stop => exact hsame _ (s.sameInstances_next rfl)
  | dispatched k =>
    simp only [HostState.next]
    split
    · exact ⟨hr, iff_true_intro h⟩
    · rename_i start hstart
      have hr' : (s.setStage k .connecting).Reports := ⟨hr.connected, hr.sent⟩
      have h' : (s.setStage k .connecting).Accounted := h
      exact ⟨hr'.create start, iff_true_intro (h'.create hr' start)⟩
  | ping ref accepted =>
    cases hc : s.controllers[ref]? with
    | none =>
      have hnone : s.next (.ping ref accepted) = s := by simp only [HostState.next, onPing, hc]
      rw [hnone]
      cases accepted <;> exact ⟨hr, iff_of_true h (by simp [KeepsAccount, hc])⟩
    | some c =>
      cases accepted with
      | true =>
        obtain ⟨hr', h'⟩ := h.onPing_iff hr hc
        refine ⟨hr', h'.trans ?_⟩
        simp only [KeepsAccount, hc, Option.mem_some_iff, forall_eq']
      | false =>
        have hsame : s.next (.ping ref false) = s := by
          simp only [HostState.next, onPing, hc]
          rfl
        rw [hsame]
        exact ⟨hr, iff_true_intro h⟩
  | terminated ref =>
    obtain ⟨hr', h'⟩ := onTerminated_accounted hr ref
    exact ⟨hr', iff_true_intro (h'.mpr h)⟩
  | ended ref =>
    simp only [HostState.next, KeepsAccount]
    cases hc : s.controllers[ref]? with
    | none =>
      have hnone : s.onEnd ref = s := by simp only [HostState.onEnd, hc]
      rw [hnone]
      exact ⟨hr, iff_of_true h (by simp)⟩
    | some c =>
      cases hend : c.terminated && !c.ended with
      | true =>
        obtain ⟨hr', h'⟩ := h.onEnd_iff hr hc hend
        refine ⟨hr', h'.trans ⟨fun htold c' hc' _ => ?_, fun htold => htold c rfl hend⟩⟩
        cases hc'
        exact htold
      | false =>
        have hnone : s.onEnd ref = s := by
          simp only [HostState.onEnd, hc, hend]
          rfl
        rw [hnone]
        refine ⟨hr, iff_of_true h fun c' hc' hend' => ?_⟩
        cases hc'
        rw [hend] at hend'
        cases hend'
  | fetched i =>
    simp only [HostState.next, KeepsAccount]
    cases hget : s.fetching[i]? with
    | none => exact ⟨hr, iff_of_true h (by simp)⟩
    | some ref =>
      have hr' : ({ s with fetching := s.fetching.eraseIdx i } : HostState).Reports :=
        ⟨hr.connected, hr.sent⟩
      have h' : ({ s with fetching := s.fetching.eraseIdx i } : HostState).Accounted := h
      refine ⟨hr'.sendInstanceInfo ref false, ?_⟩
      cases hc : s.controllers[ref]? with
      | none =>
        have hnone : HostState.sendInstanceInfo { s with fetching := s.fetching.eraseIdx i } ref
            false = { s with fetching := s.fetching.eraseIdx i } := by
          simp only [HostState.sendInstanceInfo, hc]
        dsimp only
        rw [hnone]
        exact iff_of_true h' (by simp [hc])
      | some c =>
        refine (h'.sendInstanceInfo_iff hr' hc).trans ?_
        simp [hc]
  | connection connected => exact ⟨⟨ha, hr.sent⟩, iff_true_intro h⟩

theorem reports_new : new.Reports := ⟨rfl, fun _ hinfo => (nomatch hinfo)⟩

/-- While the Manager stays connected, every instance is accounted for in every state of a run
exactly if every step keeps the account. -/
theorem accounted_iff_keepsAccount (as : List Action) (has : ∀ a ∈ as, a.staysConnected = true) :
    System.Always HostState.next Accounted new as ↔ System.Meets HostState.next KeepsAccount new as :=
  System.always_iff_meets (I := Reports) (A := fun a => a.staysConnected = true)
    (fun _ _ ha hr h => (h.next hr ha).2) (fun _ _ ha hr h _ => (h.next hr ha).1) reports_new
    (fun _ _ hc => (nomatch hc)) as has

/-- An instance starts, connects and ends. -/
def ordinaryInstance : List Action :=
  [.addSequence "sequence", .startRunner ⟨"instance", "sequence", none⟩, .initialized 0,
    .dispatched 0, .ping 0 true, .ready 0, .terminated 0, .ended 0]

theorem ordinaryInstance_accounted : System.Always HostState.next Accounted new ordinaryInstance :=
  (accounted_iff_keepsAccount ordinaryInstance (by decide)).mpr
    ⟨trivial, trivial, trivial, trivial, by unfold KeepsAccount; decide +kernel, trivial, trivial,
      by unfold KeepsAccount; decide +kernel, trivial⟩

/-- The Manager is not told that a required instance is gone. -/
theorem requiredInstance_not_gone :
    ¬ ∀ as : List Action, (∀ a ∈ as, a.staysConnected = true) →
      (as.foldl HostState.next new).Accounted := by
  intro hall
  have hc : (requiredInstance.foldl HostState.next new).controllers[0]?.map (·.ended) =
      some true := by decide +kernel
  have hmessages : (requiredInstance.foldl HostState.next new).messages 0 = [false] := by
    decide +kernel
  obtain ⟨c, hget, hended⟩ := Option.map_eq_some_iff.mp hc
  have haccounted := hall requiredInstance (by decide) 0 c hget
  rw [hended, hmessages] at haccounted
  rcases haccounted with hnil | ⟨n, heq⟩
  · cases hnil
  · have hlength := congrArg List.length heq
    simp at hlength

end HostState

end TransformHub.Host.Instances

import TransformHub.ApiRouter.ResponseCleanup

/-!
# The invariant of a request

At each `await`, what is registered and what is known of the current dispatch (`RequestState.Inv`).
-/

namespace TransformHub.ApiRouter

/-! ## The invariant -/

def Stage.Holds (isStream : Bool) (current : Option BrokerDispatch) : Stage → Prop
  | .starting | .awaiting .route _ | .awaiting .routed (some _) => current = none
  | .awaiting .routed none | .awaiting .dispatch none => False
  | .awaiting .race outcome => ∃ d, current = some d ∧ d.Raced outcome
  | .awaiting .dispatch (some _) => ∃ d r, current = some d ∧ d.broker = .responded r ∧ r.Fresh
  | .awaiting (.disposal _) outcome => ∃ d r, current = some d ∧ d.broker = .responded r ∧
      r.Disposed ∧ (outcome = none → r.cleanup = .pending)
  | .awaiting .body _ => ∃ d r, current = some d ∧ d.Owns r
  | .awaiting (.cleanup _) _ => ∃ d r, current = some d ∧ d.Owns r ∧ r.cleanupPromise = true
  | .settled none => ∃ d r, current = some d ∧ d.Owns r ∧
      (r.cleanupPromise = true ∨ isStream = true)
  | .settled (some _) => ∀ d, current = some d →
      d.Done ∨ ∃ r, d.Owns r ∧ r.cleanupPromise = true

/-- A listener of the request itself may be registered, or the transport may know of it. -/
def Stage.listens : Stage → Bool
  | .awaiting .route none | .awaiting (.disposal _) _ | .awaiting (.cleanup _) none
  | .settled none => true
  | _ => false

namespace RequestState

variable {s s' s'' : RequestState}

/-- What is known of the dispatches before the current one. -/
structure Followed (s : RequestState) : Prop where
  past : ∀ d ∈ s.past, d.Quiet ∧ ∃ r, d.broker = .responded r ∧ r.Disposed
  length : s.past.length = s.redirects
  redirects : s.redirects ≤ 4

/-- No listener and no timer of the request itself is registered, and the transport does not know of
it. -/
structure Unlistened (s : RequestState) : Prop where
  routeListener : s.routeListener = false
  disposeListener : s.disposeListener = false
  disposeTimer : s.disposeTimer = false
  cleanupListener : s.cleanupListener = false
  active : s.active = false

structure Inv (s : RequestState) : Prop where
  routeListener : s.routeListener = true → s.stage = .awaiting .route none
  disposal : s.disposeListener = true ∨ s.disposeTimer = true →
    ∃ after outcome, s.stage = .awaiting (.disposal after) outcome
  cleanupListener : s.cleanupListener = true → ∃ error, s.stage = .awaiting (.cleanup error) none
  follows : ∀ redirect outcome, s.stage = .awaiting (.disposal (.follows redirect)) outcome →
    s.redirects < 4
  active : s.active = true → s.stage = .settled none
  followed : s.Followed
  held : s.stage.Holds s.request.isStream s.current

theorem inv_new (request : ClientRequest) : (new request).Inv where
  routeListener := nofun
  disposal := fun h => by rcases h with h | h <;> cases h
  cleanupListener := nofun
  follows := nofun
  active := nofun
  followed := ⟨fun d hd => absurd hd List.not_mem_nil, rfl, Nat.zero_le 4⟩
  held := rfl

/-! ## Interruptions -/

theorem resolve_cases (p : Awaited → Bool) (outcome : Option BrokerError) (stage : Stage) :
    stage.resolve p outcome = stage ∨ ∃ what, stage = .awaiting what none ∧ p what = true ∧
      stage.resolve p outcome = .awaiting what (some outcome) := by
  unfold Stage.resolve
  split
  · rename_i what
    by_cases hp : p what = true
    · rw [if_pos hp]
      exact .inr ⟨what, rfl, hp, rfl⟩
    · rw [if_neg hp]
      exact .inl rfl
  · exact .inl rfl

/-- Listeners and timers have gone, and what is awaited may have settled. -/
structure Interrupts (s s' : RequestState) : Prop where
  request : s'.request = s.request
  past : s'.past = s.past
  redirects : s'.redirects = s.redirects
  active : s'.active = s.active
  routeListener : s'.routeListener = true → s.routeListener = true
  disposeListener : s'.disposeListener = true → s.disposeListener = true
  disposeTimer : s'.disposeTimer = true → s.disposeTimer = true
  cleanupListener : s'.cleanupListener = true → s.cleanupListener = true
  current : Option.Rel BrokerDispatch.Quieter s.current s'.current
  stage : s'.stage = s.stage ∨ ∃ what outcome, s.stage = .awaiting what none ∧
    s'.stage = .awaiting what (some outcome) ∧
    (what.isRoute = true → s'.routeListener = false) ∧
    (what.isCleanup = true → s'.cleanupListener = false) ∧
    (what.isRace = true → outcome ≠ none ∧ ∀ d ∈ s'.current, d.discardLateResponse = true)

theorem rel_refl (o : Option BrokerDispatch) : Option.Rel BrokerDispatch.Quieter o o := by
  cases o with
  | none => exact .none
  | some d => exact .some (.refl d)

theorem rel_trans {o o' o'' : Option BrokerDispatch} (h : Option.Rel BrokerDispatch.Quieter o o')
    (h' : Option.Rel BrokerDispatch.Quieter o' o'') : Option.Rel BrokerDispatch.Quieter o o'' := by
  cases h with
  | none => exact h'
  | some hq =>
    cases h' with
    | some hq' => exact .some (hq.trans hq')

theorem rel_map (o : Option BrokerDispatch) {f : BrokerDispatch → BrokerDispatch}
    (hf : ∀ d : BrokerDispatch, d.Quieter (f d)) :
    Option.Rel BrokerDispatch.Quieter o (o.map f) := by
  cases o with
  | none => exact .none
  | some d => exact .some (hf d)

theorem Interrupts.refl (s : RequestState) : s.Interrupts s :=
  ⟨rfl, rfl, rfl, rfl, id, id, id, id, rel_refl _, .inl rfl⟩

theorem Interrupts.trans (h : s.Interrupts s') (h' : s'.Interrupts s'') : s.Interrupts s'' where
  request := h'.request.trans h.request
  past := h'.past.trans h.past
  redirects := h'.redirects.trans h.redirects
  active := h'.active.trans h.active
  routeListener := h.routeListener ∘ h'.routeListener
  disposeListener := h.disposeListener ∘ h'.disposeListener
  disposeTimer := h.disposeTimer ∘ h'.disposeTimer
  cleanupListener := h.cleanupListener ∘ h'.cleanupListener
  current := rel_trans h.current h'.current
  stage := by
    obtain hsame | ⟨what, outcome, hbefore, hafter, hroute, hcleanup, hrace⟩ := h.stage
    · rw [← hsame]
      exact h'.stage
    obtain hsame | ⟨what', outcome', hbefore', -⟩ := h'.stage
    · -- the listeners that have gone do not come back
      refine .inr ⟨what, outcome, hbefore, hsame.trans hafter, fun hw => ?_, fun hw => ?_,
        fun hw => ⟨(hrace hw).1, fun d'' hd'' => ?_⟩⟩
      · exact RoutedBrokerResponse.eq_false_of_imp h'.routeListener (hroute hw)
      · exact RoutedBrokerResponse.eq_false_of_imp h'.cleanupListener (hcleanup hw)
      · have hrel := h'.current
        rw [Option.mem_def.mp hd''] at hrel
        cases hd' : s'.current with
        | none =>
          rw [hd'] at hrel
          cases hrel
        | some d' =>
          rw [hd'] at hrel
          cases hrel with
          | some hq => exact hq.discardLateResponse ((hrace hw).2 d' hd')
    · rw [hafter] at hbefore'
      cases hbefore'

theorem interrupts_updateCurrent (s : RequestState) {f : BrokerDispatch → BrokerDispatch}
    (hf : ∀ d : BrokerDispatch, d.Quieter (f d)) : s.Interrupts (s.updateCurrent f) :=
  { Interrupts.refl s with
    current := rel_map _ hf
    stage := .inl rfl }

theorem interrupts_updateResponse (s : RequestState)
    {f : RoutedBrokerResponse → RoutedBrokerResponse}
    (hf : ∀ r : RoutedBrokerResponse, r.Quieter (f r)) : s.Interrupts (s.updateResponse f) :=
  interrupts_updateCurrent s fun _ => BrokerDispatch.quieter_updateResponse hf

variable {outcome : Option BrokerError}

section

variable (s)
include s

theorem interrupts_settles {p : Awaited → Bool}
    (hroute : p .route = true → s.routeListener = false)
    (hcleanup : ∀ error, p (.cleanup error) = true → s.cleanupListener = false)
    (hrace : p .race = true → outcome ≠ none ∧ ∀ d ∈ s.current, d.discardLateResponse = true) :
    s.Interrupts (s.settles p outcome) :=
  { Interrupts.refl s with
    stage := by
      obtain hsame | ⟨what, hbefore, hp, hafter⟩ := resolve_cases p outcome s.stage
      · exact .inl hsame
      · refine .inr ⟨what, outcome, hbefore, hafter, fun hw => ?_, fun hw => ?_, fun hw => ?_⟩
        · cases what with
          | route => exact hroute hp
          | routed | race | dispatch | disposal | body | cleanup => cases hw
        · cases what with
          | cleanup error => exact hcleanup error hp
          | route | routed | race | dispatch | disposal | body => cases hw
        · cases what with
          | race => exact hrace hp
          | route | routed | dispatch | disposal | body | cleanup => cases hw }

theorem interrupts_abortController : s.Interrupts s.abortController := by
  unfold abortController
  split
  · exact .refl s
  split
  · exact .refl s
  · have haborted := interrupts_updateCurrent s BrokerDispatch.quieter_abort
    dsimp only
    split
    · have hgone : (s.updateCurrent BrokerDispatch.abort).Interrupts
          { s.updateCurrent BrokerDispatch.abort with cleanupListener := false } :=
        { Interrupts.refl _ with cleanupListener := fun h => absurd h Bool.false_ne_true }
      exact (haborted.trans hgone).trans (interrupts_settles _ nofun
        (fun _ _ => rfl) nofun)
    · exact haborted

theorem interrupts_abortRoute : s.Interrupts s.abortRoute := by
  unfold abortRoute
  split
  · have hgone : s.Interrupts { s with routeListener := false } :=
      { Interrupts.refl s with
        routeListener := fun h => absurd h Bool.false_ne_true
        stage := .inl rfl }
    exact hgone.trans (interrupts_settles _ (fun _ => rfl) nofun
      nofun)
  · exact .refl s

theorem interrupts_abortDispatch : s.Interrupts s.abortDispatch := by
  unfold abortDispatch
  split
  · exact .refl s
  rename_i d hd
  split
  · have hgone := (interrupts_abortController s).trans
      (interrupts_updateCurrent s.abortController (f := fun d =>
        { d with abortListener := false, discardLateResponse := true }) fun d =>
          { BrokerDispatch.Quieter.refl d with
            abortListener := fun h => absurd h Bool.false_ne_true
            discardLateResponse := fun _ => rfl })
    dsimp only
    split
    · exact hgone
    · refine hgone.trans (interrupts_settles _ nofun nofun
        fun _ => ⟨Option.some_ne_none _, fun d' hd' => ?_⟩)
      obtain ⟨d'', -, rfl⟩ := Option.map_eq_some_iff.mp hd'
      rfl
  · exact .refl s

theorem interrupts_abortResponse : s.Interrupts s.abortResponse := by
  unfold abortResponse
  split
  · exact .refl s
  split
  · refine (interrupts_abortController s).trans (interrupts_updateResponse _ fun r => ?_)
    have hdestroyed := RoutedBrokerResponse.quieter_destroy r
    exact { hdestroyed with requestListener := fun h => absurd h Bool.false_ne_true }
  · exact .refl s

theorem interrupts_abortDisposal : s.Interrupts s.abortDisposal := by
  unfold abortDisposal
  split
  · have hgone : s.Interrupts { s with disposeListener := false } :=
      { Interrupts.refl s with disposeListener := fun h => absurd h Bool.false_ne_true }
    exact (hgone.trans (interrupts_abortController _)).trans (interrupts_settles _
      nofun nofun nofun)
  · exact .refl s

theorem interrupts_abortSignal : s.Interrupts s.abortSignal := by
  unfold abortSignal
  split
  · have haborted : s.Interrupts { s with aborted := true } := { Interrupts.refl s with }
    have hroute := haborted.trans (interrupts_abortRoute _)
    have hdispatch := hroute.trans (interrupts_abortDispatch _)
    have hresponse := hdispatch.trans (interrupts_abortResponse _)
    exact hresponse.trans (interrupts_abortDisposal _)
  · exact .refl s

theorem interrupts_timerFires : s.Interrupts s.timerFires := by
  unfold timerFires
  split
  · exact .refl s
  rename_i d hd
  split
  · have hfired := (interrupts_updateCurrent s (f := fun d =>
      { d with timer := false, timedOut := true, discardLateResponse := true }) fun d =>
        { BrokerDispatch.Quieter.refl d with
          timer := fun h => absurd h Bool.false_ne_true
          discardLateResponse := fun _ => rfl }).trans (interrupts_abortController _)
    refine hfired.trans (interrupts_settles _ nofun nofun
      fun _ => ⟨Option.some_ne_none _, fun d' hd' => ?_⟩)
    have hrel := (interrupts_abortController (s.updateCurrent fun d =>
      { d with timer := false, timedOut := true, discardLateResponse := true })).current
    rw [Option.mem_def.mp hd', updateCurrent, hd] at hrel
    cases hrel with
    | some hq => exact hq.discardLateResponse rfl
  · exact .refl s

theorem interrupts_disposeTimerFires : s.Interrupts s.disposeTimerFires := by
  unfold disposeTimerFires
  split
  · have hgone : s.Interrupts { s with disposeTimer := false } :=
      { Interrupts.refl s with disposeTimer := fun h => absurd h Bool.false_ne_true }
    exact (hgone.trans (interrupts_abortController _)).trans (interrupts_settles _
      nofun nofun nofun)
  · exact .refl s

theorem interrupts_routeSettles (outcome : Option BrokerError) :
    s.Interrupts (s.next (.routeSettles outcome)) := by
  have hgone : s.Interrupts { s with routeListener := false } :=
    { Interrupts.refl s with
        routeListener := fun h => absurd h Bool.false_ne_true
        stage := .inl rfl }
  exact hgone.trans (interrupts_settles _ (fun _ => rfl) nofun
    nofun)

theorem interrupts_bodyChunk (bytes : ℕ) : s.Interrupts (s.bodyChunk bytes) := by
  unfold bodyChunk
  split
  · split
    · have hread : s.Interrupts { s with size := s.size + bytes } := { Interrupts.refl s with }
      dsimp only
      split
      · exact (hread.trans (interrupts_updateResponse _
          RoutedBrokerResponse.quieter_destroy)).trans (interrupts_settles _
            nofun nofun nofun)
      · exact hread
    · exact .refl s
  · exact .refl s

theorem interrupts_bodyEnds (outcome : Option BrokerError) : s.Interrupts (s.bodyEnds outcome) := by
  unfold bodyEnds
  split
  · exact .refl s
  split
  · exact .refl s
  · exact interrupts_settles s nofun nofun nofun

theorem interrupts_cleanupObserved : s.Interrupts s.cleanupObserved := by
  unfold cleanupObserved
  split
  · split
    · have hgone : s.Interrupts { s with cleanupListener := false } :=
        { Interrupts.refl s with
        cleanupListener := fun h => absurd h Bool.false_ne_true
        stage := .inl rfl }
      exact hgone.trans (interrupts_settles _ nofun (fun _ _ => rfl)
        nofun)
    · exact .refl s
  · exact .refl s

end

variable {isStream : Bool} {stage : Stage}

theorem holds_quieter {o o' : Option BrokerDispatch} (h : stage.Holds isStream o)
    (hrel : Option.Rel BrokerDispatch.Quieter o o') :
    stage.Holds isStream o' := by
  cases hrel with
  | none => exact h
  | @some d d' hq =>
  match stage, h with
  | .awaiting .race _, ⟨_, hd, hraced⟩ =>
    cases hd
    exact ⟨d', rfl, hraced.quieter hq⟩
  | .awaiting .dispatch (some _), ⟨_, r, hd, hr, hfresh⟩ =>
    cases hd
    obtain ⟨r', hr', hquieter⟩ := hq.responded r hr
    exact ⟨d', r', rfl, hr', hfresh.quieter hquieter⟩
  | .awaiting (.disposal _) _, ⟨_, r, hd, hr, hdisposed, hpending⟩ =>
    cases hd
    obtain ⟨r', hr', hquieter⟩ := hq.responded r hr
    exact ⟨d', r', rfl, hr', hdisposed.quieter hquieter,
      fun hnone => hquieter.cleanup.trans (hpending hnone)⟩
  | .awaiting .body _, ⟨_, r, hd, howns⟩ =>
    cases hd
    obtain ⟨r', howns', -⟩ := howns.quieter hq
    exact ⟨d', r', rfl, howns'⟩
  | .awaiting (.cleanup _) _, ⟨_, r, hd, howns, hpromise⟩ =>
    cases hd
    obtain ⟨r', howns', hquieter⟩ := howns.quieter hq
    exact ⟨d', r', rfl, howns', hquieter.cleanupPromise.trans hpromise⟩
  | .settled none, ⟨_, r, hd, howns, hcleaned⟩ =>
    cases hd
    obtain ⟨r', howns', hquieter⟩ := howns.quieter hq
    exact ⟨d', r', rfl, howns', hcleaned.imp hquieter.cleanupPromise.trans id⟩
  | .settled (some _), h =>
    intro _ hd
    cases hd
    refine (h d rfl).imp (·.quieter hq) ?_
    rintro ⟨r, howns, hpromise⟩
    obtain ⟨r', howns', hquieter⟩ := howns.quieter hq
    exact ⟨r', howns', hquieter.cleanupPromise.trans hpromise⟩

theorem holds_settles {what : Awaited} {o : Option BrokerDispatch}
    (h : (Stage.awaiting what none).Holds isStream o)
    (hrace : what.isRace = true → outcome ≠ none ∧ ∀ d ∈ o, d.discardLateResponse = true) :
    (Stage.awaiting what (some outcome)).Holds isStream o := by
  cases what with
  | race =>
    obtain ⟨d, hd, hpending⟩ := h
    obtain ⟨hne, hdiscard⟩ := hrace rfl
    obtain ⟨e, rfl⟩ := Option.ne_none_iff_exists'.mp hne
    exact ⟨d, hd, .inr ⟨hdiscard d hd, .inl hpending⟩⟩
  | disposal after =>
    obtain ⟨d, r, hd, hr, hdisposed, -⟩ := h
    exact ⟨d, r, hd, hr, hdisposed, nofun⟩
  | routed | dispatch => exact h.elim
  | route | body | cleanup => exact h

theorem Inv.interrupts (h : s.Inv) (hi : s.Interrupts s') : s'.Inv where
  routeListener := fun hlistens => by
    have hbefore := h.routeListener (hi.routeListener hlistens)
    obtain hsame | ⟨what, outcome, hwhat, -, hroute, -⟩ := hi.stage
    · exact hsame.trans hbefore
    · cases hwhat.symm.trans hbefore
      exact absurd hlistens (Bool.eq_false_iff.mp (hroute rfl))
  disposal := fun hlistens => by
    obtain ⟨after, outcome, hbefore⟩ :=
      h.disposal (hlistens.imp hi.disposeListener hi.disposeTimer)
    obtain hsame | ⟨what, outcome', hwhat, hafter, -⟩ := hi.stage
    · exact ⟨after, outcome, hsame.trans hbefore⟩
    · cases hwhat.symm.trans hbefore
      exact ⟨after, some outcome', hafter⟩
  cleanupListener := fun hlistens => by
    obtain ⟨error, hbefore⟩ := h.cleanupListener (hi.cleanupListener hlistens)
    obtain hsame | ⟨what, outcome, hwhat, -, -, hcleanup, -⟩ := hi.stage
    · exact ⟨error, hsame.trans hbefore⟩
    · cases hwhat.symm.trans hbefore
      exact absurd hlistens (Bool.eq_false_iff.mp (hcleanup rfl))
  follows := fun redirect outcome hstage => by
    rw [hi.redirects]
    obtain hsame | ⟨what, outcome', hwhat, hafter, -⟩ := hi.stage
    · exact h.follows redirect outcome (hsame ▸ hstage)
    · cases hafter.symm.trans hstage
      exact h.follows redirect none hwhat
  active := fun hactive => by
    have hbefore := h.active (hi.active ▸ hactive)
    obtain hsame | ⟨what, outcome, hwhat, -⟩ := hi.stage
    · exact hsame.trans hbefore
    · cases hwhat.symm.trans hbefore
  followed := ⟨hi.past ▸ h.followed.past, by rw [hi.past, hi.redirects, h.followed.length],
    hi.redirects ▸ h.followed.redirects⟩
  held := by
    rw [hi.request]
    obtain hsame | ⟨what, outcome, hwhat, hafter, -, -, hrace⟩ := hi.stage
    · rw [hsame]
      exact holds_quieter h.held hi.current
    · have hheld := h.held
      rw [hwhat] at hheld
      rw [hafter]
      exact holds_settles (holds_quieter hheld hi.current) hrace

/-! ## The request goes on -/

theorem Unlistened.interrupts (h : s.Unlistened) (hi : s.Interrupts s') : s'.Unlistened where
  routeListener := RoutedBrokerResponse.eq_false_of_imp hi.routeListener h.routeListener
  disposeListener := RoutedBrokerResponse.eq_false_of_imp hi.disposeListener h.disposeListener
  disposeTimer := RoutedBrokerResponse.eq_false_of_imp hi.disposeTimer h.disposeTimer
  cleanupListener := RoutedBrokerResponse.eq_false_of_imp hi.cleanupListener h.cleanupListener
  active := hi.active.trans h.active

theorem Followed.interrupts (h : s.Followed) (hi : s.Interrupts s') : s'.Followed where
  past := hi.past ▸ h.past
  length := by rw [hi.past, hi.redirects, h.length]
  redirects := hi.redirects ▸ h.redirects

theorem Unlistened.updateCurrent (h : s.Unlistened) (f : BrokerDispatch → BrokerDispatch) :
    (s.updateCurrent f).Unlistened := { h with }

theorem Followed.updateCurrent (h : s.Followed) (f : BrokerDispatch → BrokerDispatch) :
    (s.updateCurrent f).Followed := { h with }

theorem Inv.unlistened (h : s.Inv) (hs : s.stage.listens = false) : s.Unlistened where
  routeListener := Bool.eq_false_iff.mpr fun hl => by
    rw [h.routeListener hl] at hs
    cases hs
  disposeListener := Bool.eq_false_iff.mpr fun hl => by
    obtain ⟨after, outcome, hstage⟩ := h.disposal (.inl hl)
    rw [hstage] at hs
    cases hs
  disposeTimer := Bool.eq_false_iff.mpr fun hl => by
    obtain ⟨after, outcome, hstage⟩ := h.disposal (.inr hl)
    rw [hstage] at hs
    cases hs
  cleanupListener := Bool.eq_false_iff.mpr fun hl => by
    obtain ⟨error, hstage⟩ := h.cleanupListener hl
    rw [hstage] at hs
    cases hs
  active := Bool.eq_false_iff.mpr fun hl => by
    rw [h.active hl] at hs
    cases hs

section

variable (hu : s.Unlistened) (hf : s.Followed)
include hu hf

theorem Unlistened.inv
    (hs : ∀ redirect outcome, s.stage ≠ .awaiting (.disposal (.follows redirect)) outcome)
    (hheld : s.stage.Holds s.request.isStream s.current) : s.Inv where
  routeListener := fun hl => absurd hl (Bool.eq_false_iff.mp hu.routeListener)
  disposal := fun hl => hl.elim (fun hl => absurd hl (Bool.eq_false_iff.mp hu.disposeListener))
    fun hl => absurd hl (Bool.eq_false_iff.mp hu.disposeTimer)
  cleanupListener := fun hl => absurd hl (Bool.eq_false_iff.mp hu.cleanupListener)
  follows := fun redirect outcome hstage => absurd hstage (hs redirect outcome)
  active := fun hl => absurd hl (Bool.eq_false_iff.mp hu.active)
  followed := hf
  held := hheld

theorem Unlistened.settle {error : Option BrokerError}
    (hheld : (Stage.settled error).Holds s.request.isStream s.current) : (s.settle error).Inv := by
  refine Unlistened.inv { hu with } { hf with } (fun redirect outcome h => ?_) hheld
  cases h

theorem Unlistened.settle_none (hcurrent : s.current = none)
    (error : BrokerError) : (s.settle (some error)).Inv := by
  refine hu.settle hf fun d hd => ?_
  rw [hcurrent] at hd
  cases hd

theorem Unlistened.waitForRoute (hcurrent : s.current = none)
    (found : Found) : (s.waitForRoute found).Inv := by
  have hrouted : ∀ outcome, ({ s with stage := .awaiting .routed (some outcome) } : RequestState).Inv := by
    intro outcome
    refine Unlistened.inv { hu with } { hf with } (fun redirect outcome h => ?_) hcurrent
    cases h
  unfold RequestState.waitForRoute
  split
  · exact hrouted _
  split
  · exact hrouted _
  · exact hrouted _
  · exact {
      routeListener := fun _ => rfl
      disposal := fun hl => hl.elim (fun hl => absurd hl (Bool.eq_false_iff.mp hu.disposeListener))
        fun hl => absurd hl (Bool.eq_false_iff.mp hu.disposeTimer)
      cleanupListener := fun hl => absurd hl (Bool.eq_false_iff.mp hu.cleanupListener)
      follows := nofun
      active := fun hl => absurd hl (Bool.eq_false_iff.mp hu.active)
      followed := { hf with }
      held := hcurrent }

end

theorem Inv.start (h : s.Inv) (hs : s.stage = .starting) (found : Found) : (s.start found).Inv := by
  have hu := h.unlistened (by rw [hs]; rfl)
  have hcurrent : s.current = none := by
    have hheld := h.held
    rw [hs] at hheld
    exact hheld
  unfold RequestState.start
  split
  · exact hu.settle_none h.followed hcurrent _
  split
  · exact hu.settle_none h.followed hcurrent _
  · exact hu.waitForRoute h.followed hcurrent found

theorem Inv.dispatch (h : s.Inv) (hs : s.stage = .awaiting .routed (some none)) (found : Found) :
    (s.dispatch found).Inv := by
  have hu := h.unlistened (by rw [hs]; rfl)
  have hcurrent : s.current = none := by
    have hheld := h.held
    rw [hs] at hheld
    exact hheld
  unfold RequestState.dispatch
  split
  · exact hu.settle_none h.followed hcurrent _
  split
  · exact hu.settle_none h.followed hcurrent _
  dsimp only
  generalize hd : (BrokerDispatch.mk _ _ _ _ _ _ _ _ _) = d
  have hpending : d.broker = .pending := hd ▸ rfl
  generalize hs' : (if found.abortsInside = true then
    ({ s with current := some d } : RequestState).abortSignal else _) = s'
  have hi : ({ s with current := some d } : RequestState).Interrupts s' := by
    subst hs'
    split
    · exact interrupts_abortSignal _
    · exact .refl _
  obtain ⟨d', hd', hpending'⟩ : ∃ d', s'.current = some d' ∧ d'.broker = .pending := by
    have hrel := hi.current
    cases hd' : s'.current with
    | none =>
      rw [hd'] at hrel
      cases hrel
    | some d' =>
      rw [hd'] at hrel
      cases hrel with
      | some hq => exact ⟨d', rfl, hq.pending hpending⟩
  have hu' : s'.Unlistened := Unlistened.interrupts (s := { s with current := some d }) { hu with } hi
  have hf' : s'.Followed := Followed.interrupts (s := { s with current := some d }) { h.followed with } hi
  cases found.throws with
  | some error =>
    refine (hu'.updateCurrent _).settle (hf'.updateCurrent _) ?_
    intro d'' hd''
    obtain ⟨d₀, -, rfl⟩ := Option.map_eq_some_iff.mp hd''
    exact .inl ⟨⟨rfl, rfl⟩, .inl rfl⟩
  | none =>
    refine Unlistened.inv { hu' with } { hf' with } nofun ?_
    exact ⟨_, congrArg (Option.map _) hd', hpending'⟩

variable {r : RoutedBrokerResponse} {d : BrokerDispatch}

theorem current_updateResponse (hd : s.current = some d) (hr : d.broker = .responded r)
    (f : RoutedBrokerResponse → RoutedBrokerResponse) :
    (s.updateResponse f).current = some { d with broker := .responded (f r) } := by
  show s.current.map _ = _
  rw [hd, Option.map_some, BrokerDispatch.updateResponse_eq hr]

theorem Inv.raced (h : s.Inv) (hs : s.stage = .awaiting .race (some outcome)) :
    (s.raced outcome).Inv := by
  have hu := h.unlistened (by rw [hs]; rfl)
  have hheld := h.held
  rw [hs] at hheld
  obtain ⟨d, hd, hraced⟩ := hheld
  simp only [RequestState.raced, hd]
  cases outcome with
  | some error =>
    refine (hu.updateCurrent _).settle (h.followed.updateCurrent _) fun d' hd' => .inl ?_
    obtain ⟨d₀, hd₀, rfl⟩ := Option.map_eq_some_iff.mp hd'
    cases hd.symm.trans hd₀
    exact ⟨d.quiet_release, hraced.imp (·) fun hdiscarded => .inl ⟨hdiscarded.1, hdiscarded.2⟩⟩
  | none =>
    obtain ⟨r, hr, hresponse⟩ := hraced
    dsimp only
    split
    · have hdisposed : r.ownLateCleanup.Disposed := by
        obtain hfresh | ⟨-, hlate, hdisposed⟩ := hresponse
        · exact hfresh.ownLateCleanup.2
        · rw [RoutedBrokerResponse.ownLateCleanup_of_late hlate]
          exact hdisposed
      refine ((hu.updateCurrent _).updateCurrent _).settle
        ((h.followed.updateCurrent _).updateCurrent _) fun d' hd' => .inl ?_
      obtain ⟨d₀, hd₀, rfl⟩ := Option.map_eq_some_iff.mp hd'
      cases (current_updateResponse hd hr _).symm.trans hd₀
      exact ⟨BrokerDispatch.quiet_release _, .inr (.inr ⟨_, rfl, hdisposed⟩)⟩
    · rename_i hdiscard
      have hfresh := hresponse.resolve_right fun hlate => hdiscard hlate.1
      refine Unlistened.inv { hu with } { h.followed with } nofun ?_
      exact ⟨d, r, rfl, hr, hfresh⟩

/-! ## Redirects and responses -/

theorem Inv.disposeRedirect (h : s.Inv) (hs : s.stage = .awaiting .dispatch (some outcome))
    {after : AfterDisposal} (hafter : ∀ redirect, after = .follows redirect → s.redirects < 4)
    (abortRequest : Bool) :
    (s.disposeRedirect after abortRequest).Inv := by
  have hu := h.unlistened (by rw [hs]; rfl)
  unfold RequestState.disposeRedirect
  generalize hs' : (if abortRequest = true then s.abortController else s) = s'
  have hi : s.Interrupts s' := by
    subst hs'
    split
    · exact interrupts_abortController s
    · exact .refl s
  have hu' := hu.interrupts hi
  have hheld := h.held
  rw [hs] at hheld
  obtain ⟨d, r, hd, hr, hfresh⟩ := holds_quieter hheld hi.current
  have hdestroyed := hfresh.quieter (RoutedBrokerResponse.quieter_destroy r)
  exact {
    routeListener := fun hl => absurd hl (Bool.eq_false_iff.mp hu'.routeListener)
    disposal := fun _ => ⟨after, none, rfl⟩
    cleanupListener := fun hl => absurd hl (Bool.eq_false_iff.mp hu'.cleanupListener)
    follows := fun redirect outcome hstage => by
      cases hstage
      exact hi.redirects.symm ▸ hafter redirect rfl
    active := fun hl => absurd hl (Bool.eq_false_iff.mp hu'.active)
    followed := { h.followed.interrupts hi with }
    held := ⟨_, _, current_updateResponse hd hr _, rfl, hdestroyed.callCleanup, fun _ => rfl⟩ }

theorem responseCleanup_owns (hu : s.Unlistened) (hf : s.Followed) (hd : s.current = some d)
    (hr : d.broker = .responded r) (hfresh : r.Fresh) :
    (s.responseCleanup d).Unlistened ∧ (s.responseCleanup d).Followed ∧
      (s.responseCleanup d).request = s.request ∧
      ∃ d' r', (s.responseCleanup d).current = some d' ∧ d'.Owns r' := by
  unfold responseCleanup
  dsimp only
  generalize hs₁ : (s.updateResponse fun r => { r with
    owned := true, requestListener := s.request.signal, dispatchListener := true }) = s₁
  have hd₁ : s₁.current = _ := hs₁ ▸ current_updateResponse hd hr _
  have htaken : ({ r with
      owned := true, requestListener := s.request.signal, dispatchListener := true } :
      RoutedBrokerResponse).Taken := ⟨hfresh.cleanups, hfresh.cleanup, rfl, hfresh.cleanupPromise⟩
  have hu₁ : s₁.Unlistened := hs₁ ▸ hu.updateCurrent _
  have hf₁ : s₁.Followed := hs₁ ▸ hf.updateCurrent _
  have hrequest₁ : s₁.request = s.request := hs₁ ▸ rfl
  generalize hs₂ : (if (s₁.aborted || d.aborted) = true then
    s₁.abortController.updateResponse RoutedBrokerResponse.destroy else s₁) = s₂
  have hi : s₁.Interrupts s₂ := by
    subst hs₂
    split
    · exact (interrupts_abortController s₁).trans
        (interrupts_updateResponse _ RoutedBrokerResponse.quieter_destroy)
    · exact .refl s₁
  obtain ⟨d₂, r₂, hd₂, hr₂, htaken₂⟩ : ∃ d₂ r₂, s₂.current = some d₂ ∧
      d₂.broker = .responded r₂ ∧ r₂.Taken := by
    have hrel := hi.current
    rw [hd₁] at hrel
    cases hd₂ : s₂.current with
    | none =>
      rw [hd₂] at hrel
      cases hrel
    | some d₂ =>
      rw [hd₂] at hrel
      cases hrel with
      | some hq =>
        obtain ⟨r₂, hr₂, hquieter⟩ := hq.responded _ rfl
        exact ⟨d₂, r₂, rfl, hr₂, htaken.quieter hquieter⟩
  refine ⟨(hu₁.interrupts hi).updateCurrent _, (hf₁.interrupts hi).updateCurrent _,
    hi.request.trans hrequest₁, _, _, current_updateResponse hd₂ hr₂ _, rfl, ?_, ?_⟩
  · split
    · rename_i hopen
      refine ⟨htaken₂.owned, fun hpromise => ?_, fun _ => ⟨htaken₂, fun hfinished => ?_⟩,
        fun hsettled => ?_⟩
      · exact absurd hpromise (Bool.eq_false_iff.mp htaken₂.cleanupPromise)
      · cases hopen.symm.trans hfinished
      · rw [htaken₂.cleanup] at hsettled
        cases hsettled
    · exact htaken₂.cleanUp.1
  · intro hsettled
    have hnot : r₂.cleanup.isSettled = true := by
      split at hsettled
      · exact hsettled
      · exact RoutedBrokerResponse.isSettled_of_cleanUp hsettled
    rw [htaken₂.cleanup] at hnot
    cases hnot

theorem Inv.respond (h : s.Inv) (hs : s.stage = .awaiting .dispatch (some outcome))
    (hd : s.current = some d) (hr : d.broker = .responded r) (hfresh : r.Fresh) :
    (s.respond d).Inv := by
  have hu := h.unlistened (by rw [hs]; rfl)
  obtain ⟨hu', hf', hrequest, d', r', hd', howns⟩ := responseCleanup_owns hu h.followed hd hr hfresh
  unfold RequestState.respond
  dsimp only
  split
  · rename_i hstream
    exact {
      routeListener := fun hl => absurd hl (Bool.eq_false_iff.mp hu'.routeListener)
      disposal := fun hl => hl.elim
        (fun hl => absurd hl (Bool.eq_false_iff.mp hu'.disposeListener))
        fun hl => absurd hl (Bool.eq_false_iff.mp hu'.disposeTimer)
      cleanupListener := fun hl => absurd hl (Bool.eq_false_iff.mp hu'.cleanupListener)
      follows := nofun
      active := fun _ => rfl
      followed := { hf' with }
      held := ⟨d'.release, r', congrArg (Option.map _) hd',
        ⟨howns.broker, howns.owned, fun _ => d'.quiet_release⟩, .inr hstream⟩ }
  · refine Unlistened.inv { hu' with } { hf' with } nofun ?_
    exact ⟨d', r', hd', howns⟩

theorem Inv.dispatched (h : s.Inv) (hs : s.stage = .awaiting .dispatch (some outcome)) :
    s.dispatched.Inv := by
  have hheld := h.held
  rw [hs] at hheld
  obtain ⟨d, r, hd, hr, hfresh⟩ := hheld
  have hthrows : ∀ error, (s.disposeRedirect (.throws error) true).Inv := fun error =>
    h.disposeRedirect hs (fun redirect heq => by cases heq) true
  unfold RequestState.dispatched
  split
  · exact h
  rename_i d' hd'
  cases hd.symm.trans hd'
  rw [BrokerDispatch.response?_eq hr]
  dsimp only
  split
  · exact hthrows _
  · exact h.respond hs hd hr hfresh
  · rename_i redirect _
    split
    · exact hthrows _
    split
    · exact hthrows _
    · rename_i hredirects
      exact h.disposeRedirect hs (fun _ _ => Nat.lt_of_not_le hredirects) false

theorem Inv.disposed (h : s.Inv) {after : AfterDisposal}
    (hs : s.stage = .awaiting (.disposal after) (some outcome)) (found : Found) :
    (s.disposed after outcome found).Inv := by
  have hheld := h.held
  rw [hs] at hheld
  obtain ⟨d, r, hd, hr, hdisposed, -⟩ := hheld
  unfold RequestState.disposed
  dsimp only
  generalize hs' : ({ s with disposeListener := false, disposeTimer := false } :
    RequestState).updateCurrent BrokerDispatch.release = s'
  have hu : s'.Unlistened := by
    subst hs'
    refine ⟨Bool.eq_false_iff.mpr fun hl => ?_, rfl, rfl, Bool.eq_false_iff.mpr fun hl => ?_,
      Bool.eq_false_iff.mpr fun hl => ?_⟩
    · cases hs.symm.trans (h.routeListener hl)
    · obtain ⟨error, hstage⟩ := h.cleanupListener hl
      cases hs.symm.trans hstage
    · cases hs.symm.trans (h.active hl)
  have hf : s'.Followed := hs' ▸ { h.followed with }
  have hd' : s'.current = some d.release := hs' ▸ congrArg (Option.map _) hd
  have hredirects : s'.redirects = s.redirects := hs' ▸ rfl
  have hsettle : ∀ error, (s'.settle (some error)).Inv := by
    intro error
    refine hu.settle hf fun d' hcurrent => .inl ?_
    cases hd'.symm.trans hcurrent
    exact ⟨d.quiet_release, .inr (.inr ⟨r, hr, hdisposed⟩)⟩
  cases after with
  | throws error => exact hsettle _
  | follows redirect =>
    cases outcome with
    | some error => exact hsettle _
    | none =>
      dsimp only
      split
      · exact hsettle _
      have hlt : s'.redirects < 4 := hredirects ▸ h.follows redirect _ hs
      let s'' : RequestState := { s' with
        routeDomain := redirect.routeDomain
        path := redirect.targetPath
        redirects := s'.redirects + 1
        past := s'.past ++ s'.current.toList
        current := none }
      have hu'' : s''.Unlistened := { hu with }
      have hf'' : s''.Followed := by
        refine ⟨fun d' hmem => ?_, ?_, hlt⟩
        · obtain hmem | hmem := List.mem_append.mp hmem
          · exact hf.past d' hmem
          · rw [hd'] at hmem
            cases List.mem_singleton.mp hmem
            exact ⟨d.quiet_release, r, hr, hdisposed⟩
        · show (s'.past ++ s'.current.toList).length = s'.redirects + 1
          rw [List.length_append, hf.length, hd']
          rfl
      split
      · exact hu''.settle_none hf'' rfl _
      · exact hu''.waitForRoute hf'' rfl found

/-! ## The end of a request -/

theorem Unlistened.awaitCleanup (hu : s.Unlistened) (hf : s.Followed) (hd : s.current = some d)
    (howns : d.Owns r) (hpromise : r.cleanupPromise = true) (d₀ : BrokerDispatch)
    (error : Option BrokerError) :
    (s.awaitCleanup d₀ error).Inv := by
  unfold RequestState.awaitCleanup
  split
  · refine hu.settle hf fun d' hd' => .inr ⟨r, ?_, hpromise⟩
    cases hd.symm.trans hd'
    exact howns
  · exact {
      routeListener := fun hl => absurd hl (Bool.eq_false_iff.mp hu.routeListener)
      disposal := fun hl => hl.elim (fun hl => absurd hl (Bool.eq_false_iff.mp hu.disposeListener))
        fun hl => absurd hl (Bool.eq_false_iff.mp hu.disposeTimer)
      cleanupListener := fun _ => ⟨error, rfl⟩
      follows := nofun
      active := fun hl => absurd hl (Bool.eq_false_iff.mp hu.active)
      followed := { hf with }
      held := ⟨d, r, hd, howns, hpromise⟩ }

theorem owns_cleanUp (howns : d.Owns r) :
    BrokerDispatch.Owns { d with broker := .responded r.cleanUp } r.cleanUp ∧
      r.cleanUp.cleanupPromise = true := by
  refine ⟨⟨rfl, howns.owned.cleanUp.1, fun hsettled => ?_⟩, howns.owned.cleanUp.2⟩
  exact howns.quiet (RoutedBrokerResponse.isSettled_of_cleanUp hsettled)

theorem Inv.bodyRead (h : s.Inv) (hs : s.stage = .awaiting .body (some outcome)) (found : Found) :
    (s.bodyRead outcome found).Inv := by
  have hu := h.unlistened (by rw [hs]; rfl)
  have hheld := h.held
  rw [hs] at hheld
  obtain ⟨d, r, hd, howns⟩ := hheld
  obtain ⟨howns', hpromise⟩ := owns_cleanUp howns
  have hd' := current_updateResponse hd howns.broker RoutedBrokerResponse.cleanUp
  have hu' : (s.updateResponse RoutedBrokerResponse.cleanUp).Unlistened := hu.updateCurrent _
  have hf' : (s.updateResponse RoutedBrokerResponse.cleanUp).Followed := h.followed.updateCurrent _
  unfold RequestState.bodyRead
  split
  · exact h
  dsimp only
  split
  · exact hu'.awaitCleanup hf' hd' howns' hpromise _ _
  · split
    · refine hu'.settle hf' fun d' hcurrent => .inr ⟨_, ?_, hpromise⟩
      cases hd'.symm.trans hcurrent
      exact howns'
    · exact hu'.awaitCleanup hf' hd' howns' hpromise _ _

theorem Inv.cleaned (h : s.Inv) {error outcome : Option BrokerError}
    (hs : s.stage = .awaiting (.cleanup error) (some outcome)) : (s.cleaned error outcome).Inv := by
  have hu := h.unlistened (by rw [hs]; rfl)
  have hheld := h.held
  rw [hs] at hheld
  obtain ⟨d, r, hd, howns, hpromise⟩ := hheld
  have hsettle : ∀ error, (s.settle error).Inv := by
    intro error
    cases error with
    | none => exact hu.settle h.followed ⟨d, r, hd, howns, .inl hpromise⟩
    | some error =>
      refine hu.settle h.followed fun d' hd' => .inr ⟨r, ?_, hpromise⟩
      cases hd.symm.trans hd'
      exact howns
  unfold RequestState.cleaned
  split
  · exact h
  split
  · exact hsettle _
  split
  · exact hsettle _
  split
  · exact hu.awaitCleanup h.followed hd howns hpromise _ _
  · exact hsettle _

theorem Inv.continues (h : s.Inv) (found : Found) : (s.continues found).Inv := by
  unfold RequestState.continues
  split
  · exact h.start ‹_› found
  · rename_i hs
    have hu := h.unlistened (by rw [hs]; rfl)
    have hheld := h.held
    rw [hs] at hheld
    exact Unlistened.inv { hu with } { h.followed with } nofun hheld
  · exact h.dispatch ‹_› found
  · rename_i hs
    have hu := h.unlistened (by rw [hs]; rfl)
    have hheld := h.held
    rw [hs] at hheld
    exact hu.settle_none h.followed hheld _
  · exact h.raced ‹_›
  · exact h.dispatched ‹_›
  · exact h.disposed ‹_› found
  · exact h.bodyRead ‹_› found
  · exact h.cleaned ‹_›
  · exact h

/-! ## The broker and the body -/

theorem holds_pending (h : stage.Holds isStream (some d)) (hpending : d.broker = .pending) :
    stage = .awaiting .race none ∨
    (∃ error, stage = .awaiting .race (some (some error))) ∧ d.discardLateResponse = true ∨
    (∃ error, stage = .settled (some error)) ∧ d.Quiet ∧ d.discardLateResponse = true := by
  have hresponded : ∀ r, d.broker ≠ .responded r := fun r hr => by
    rw [hpending] at hr
    cases hr
  match stage, h with
  | .awaiting .race none, _ => exact .inl rfl
  | .awaiting .race (some none), ⟨_, hd, r, hr, _⟩ =>
    cases hd
    exact absurd hr (hresponded r)
  | .awaiting .race (some (some error)), ⟨_, hd, hlost⟩ =>
    cases hd
    obtain hfailed | hdiscarded := hlost
    · rw [hpending] at hfailed
      cases hfailed
    · exact .inr (.inl ⟨⟨error, rfl⟩, hdiscarded.1⟩)
  | .awaiting .dispatch (some _), ⟨_, r, hd, hr, _⟩ =>
    cases hd
    exact absurd hr (hresponded r)
  | .awaiting (.disposal _) _, ⟨_, r, hd, hr, _⟩ =>
    cases hd
    exact absurd hr (hresponded r)
  | .awaiting .body _, ⟨_, r, hd, howns⟩ =>
    cases hd
    exact absurd howns.broker (hresponded r)
  | .awaiting (.cleanup _) _, ⟨_, r, hd, howns, _⟩ =>
    cases hd
    exact absurd howns.broker (hresponded r)
  | .settled none, ⟨_, r, hd, howns, _⟩ =>
    cases hd
    exact absurd howns.broker (hresponded r)
  | .settled (some error), h =>
    obtain ⟨hquiet, hfailed | hdiscarded | ⟨r, hr, -⟩⟩ | ⟨r, howns, -⟩ := h d rfl
    · rw [hpending] at hfailed
      cases hfailed
    · exact .inr (.inr ⟨⟨error, rfl⟩, hquiet, hdiscarded.1⟩)
    · exact absurd hr (hresponded r)
    · exact absurd howns.broker (hresponded r)

theorem Inv.answered (h : s.Inv) {d d' : BrokerDispatch} (hd : s.current = some d)
    (hpending : d.broker = .pending) (hwon : d'.Raced (some outcome))
    (hlost : d.discardLateResponse = true → d'.broker = .failed ∨ d'.Discarded)
    (hquiet : d.Quiet → d'.Quiet) :
    ({ s with current := some d' }.settles Awaited.isRace outcome : RequestState).Inv := by
  have hheld := h.held
  rw [hd] at hheld
  obtain hs | ⟨⟨error, hs⟩, hdiscard⟩ | ⟨⟨error, hs⟩, hquiet', hdiscard⟩ :=
    holds_pending hheld hpending
  all_goals
    have hu := h.unlistened (by rw [hs]; rfl)
    have hf := h.followed
    unfold settles
    dsimp only
    rw [hs]
    refine Unlistened.inv { hu with } { hf with } nofun ?_
  · exact ⟨d', rfl, hwon⟩
  · exact ⟨d', rfl, hlost hdiscard⟩
  · intro d'' hd''
    cases hd''
    exact .inl ⟨hquiet hquiet', (hlost hdiscard).imp id .inl⟩

theorem Inv.brokerResponds (h : s.Inv) (status : ℕ) (headers : List (String × HeaderValue))
    (body : BodyStage) : (s.brokerResponds status headers body).Inv := by
  unfold RequestState.brokerResponds
  split
  · exact h
  rename_i d hd
  split
  · rename_i hpending
    have hfresh := RoutedBrokerResponse.fresh_new status headers body
    cases hdiscard : d.discardLateResponse with
    | true =>
      obtain ⟨hlate, hdisposed⟩ := hfresh.ownLateCleanup
      refine h.answered hd hpending ⟨_, rfl, .inr ⟨rfl, hlate, hdisposed⟩⟩ (fun _ => ?_) id
      exact .inr ⟨rfl, .inr ⟨_, rfl, hlate, hdisposed⟩⟩
    | false =>
      refine h.answered hd hpending ⟨_, rfl, .inl hfresh⟩ (fun hlost => ?_) id
      rw [hdiscard] at hlost
      cases hlost
  · exact h

theorem Inv.brokerFails (h : s.Inv) (error : BrokerError) : (s.brokerFails error).Inv := by
  unfold RequestState.brokerFails
  split
  · exact h
  rename_i d hd
  split
  · rename_i hpending
    exact h.answered hd hpending (.inl rfl) (fun _ => .inl rfl) id
  · exact h

theorem holds_cleanupSettles (h : stage.Holds isStream (some d)) (hr : d.broker = .responded r)
    (hpending : r.cleanup = .pending) (failure : Option BrokerError) {d' : BrokerDispatch}
    (hd' : d' = if r.cleanupPromise then { d with broker := .responded (r.settleCleanup failure) }.release else { d with broker := .responded (r.settleCleanup failure) }) :
    (stage.resolve Awaited.isDisposal failure).Holds isStream (some d') := by
  have hnotFresh : ¬ r.Fresh := fun hfresh => by
    cases hpending.symm.trans hfresh.cleanup
  have hdisposed : r.Disposed →
      d' = { d with broker := .responded (r.settleCleanup failure) } ∧
        (r.settleCleanup failure).Disposed := fun hdisposed => by
    rw [hd', hdisposed.cleanupPromise]
    exact ⟨rfl, hdisposed.settleCleanup failure⟩
  have howns : ∀ r₀, d.Owns r₀ → d'.Owns (r.settleCleanup failure) ∧
      (r.settleCleanup failure).cleanupPromise = true := fun r₀ howns => by
    cases howns.broker.symm.trans hr
    have hpromise := howns.owned.cleanupPromise_of_cleanup_ne fun hnot => by
      cases hpending.symm.trans hnot
    rw [hd', if_pos hpromise]
    exact ⟨⟨rfl, howns.owned.settleCleanup hpromise failure, fun _ => ⟨rfl, rfl⟩⟩, hpromise⟩
  have hdiscarded : d.Discarded → d'.Discarded := by
    rintro ⟨hdiscard, hbroker | ⟨r₀, hr₀, hlate, hdisposed₀⟩⟩
    · cases hr.symm.trans hbroker
    · cases hr.symm.trans hr₀
      obtain ⟨rfl, hdisposed'⟩ := hdisposed hdisposed₀
      exact ⟨hdiscard, .inr ⟨_, rfl, hlate, hdisposed'⟩⟩
  match stage, h with
  | .starting, hd | .awaiting .route none, hd | .awaiting .route (some _), hd
  | .awaiting .routed none, hd | .awaiting .routed (some _), hd => cases hd
  | .awaiting .race none, ⟨_, hd, hraced⟩ =>
    cases hd
    cases hr.symm.trans hraced
  | .awaiting .race (some none), ⟨_, hd, r₀, hr₀, hresponse⟩ =>
    cases hd
    cases hr.symm.trans hr₀
    obtain ⟨hdiscard, hlate, hdisposed₀⟩ := hresponse.resolve_left hnotFresh
    obtain ⟨rfl, hdisposed'⟩ := hdisposed hdisposed₀
    exact ⟨_, rfl, _, rfl, .inr ⟨hdiscard, hlate, hdisposed'⟩⟩
  | .awaiting .race (some (some error)), ⟨_, hd, hlost⟩ =>
    cases hd
    refine ⟨d', rfl, hlost.imp (fun hfailed => ?_) hdiscarded⟩
    cases hr.symm.trans hfailed
  | .awaiting .dispatch (some _), ⟨_, r₀, hd, hr₀, hfresh⟩ =>
    cases hd
    cases hr.symm.trans hr₀
    exact absurd hfresh hnotFresh
  | .awaiting (.disposal after) outcome, ⟨_, r₀, hd, hr₀, hdisposed₀, _⟩ =>
    cases hd
    cases hr.symm.trans hr₀
    obtain ⟨rfl, hdisposed'⟩ := hdisposed hdisposed₀
    cases outcome with
    | none => exact ⟨_, _, rfl, rfl, hdisposed', nofun⟩
    | some outcome => exact ⟨_, _, rfl, rfl, hdisposed', nofun⟩
  | .awaiting .body none, ⟨_, r₀, hd, howns₀⟩ | .awaiting .body (some _), ⟨_, r₀, hd, howns₀⟩ =>
    cases hd
    exact ⟨d', _, rfl, (howns r₀ howns₀).1⟩
  | .awaiting (.cleanup _) none, ⟨_, r₀, hd, howns₀, _⟩
  | .awaiting (.cleanup _) (some _), ⟨_, r₀, hd, howns₀, _⟩ =>
    cases hd
    exact ⟨d', _, rfl, howns r₀ howns₀⟩
  | .settled none, ⟨_, r₀, hd, howns₀, _⟩ =>
    cases hd
    obtain ⟨howns', hpromise⟩ := howns r₀ howns₀
    exact ⟨d', _, rfl, howns', .inl hpromise⟩
  | .settled (some error), h =>
    intro d'' hd''
    cases hd''
    obtain ⟨hquiet, hdone⟩ | ⟨r₀, howns₀, -⟩ := h d rfl
    · refine .inl ⟨?_, ?_⟩
      · rw [hd']
        split
        · exact ⟨rfl, rfl⟩
        · exact hquiet
      · obtain hfailed | hdiscarded₀ | ⟨r₀, hr₀, hdisposed₀⟩ := hdone
        · cases hr.symm.trans hfailed
        · exact .inr (.inl (hdiscarded hdiscarded₀))
        · cases hr.symm.trans hr₀
          obtain ⟨rfl, hdisposed'⟩ := hdisposed hdisposed₀
          exact .inr (.inr ⟨_, rfl, hdisposed'⟩)
    · exact .inr ⟨_, howns r₀ howns₀⟩

theorem resolve_eq {p : Awaited → Bool} {stage' : Stage}
    (hnone : ∀ what, stage' = .awaiting what none → p what = false) (hstage : stage = stage') :
    stage.resolve p outcome = stage' := by
  subst hstage
  obtain hsame | ⟨what, hwhat, hp, -⟩ := resolve_cases p outcome stage
  · exact hsame
  · exact absurd hp (Bool.eq_false_iff.mp (hnone what hwhat))

theorem Inv.cleanupSettles (h : s.Inv) (failure : Option BrokerError) :
    (s.cleanupSettles failure).Inv := by
  unfold RequestState.cleanupSettles
  split
  · exact h
  rename_i r hr
  obtain ⟨d, hd, hresponse⟩ := Option.bind_eq_some_iff.mp hr
  have hbroker := BrokerDispatch.response?_eq_some.mp hresponse
  split
  · rename_i hpending
    dsimp only
    have hheld := h.held
    rw [hd] at hheld
    have hheld' := holds_cleanupSettles hheld hbroker hpending failure rfl
    have hcurrent := current_updateResponse hd hbroker fun r => r.settleCleanup failure
    generalize hs' : (if r.cleanupPromise = true then
      (s.updateResponse fun r => r.settleCleanup failure).updateCurrent BrokerDispatch.release
      else s.updateResponse fun r => r.settleCleanup failure) = s'
    have hsame : s' = { s with current := s'.current } := by
      subst hs'
      split <;> rfl
    have hcurrent' : s'.current = some (if r.cleanupPromise then
        { d with broker := .responded (r.settleCleanup failure) }.release
        else { d with broker := .responded (r.settleCleanup failure) }) := by
      subst hs'
      split
      · exact congrArg (Option.map BrokerDispatch.release) hcurrent
      · exact hcurrent
    rw [hsame]
    exact {
      routeListener := fun hl => resolve_eq (fun what hw => by cases hw; rfl)
        (h.routeListener hl)
      disposal := fun hl => by
        obtain ⟨after, outcome, hstage⟩ := h.disposal hl
        obtain hsame | ⟨what, hwhat, -, hafter⟩ :=
          resolve_cases Awaited.isDisposal failure s.stage
        · exact ⟨after, outcome, hsame.trans hstage⟩
        · cases hwhat.symm.trans hstage
          exact ⟨after, some failure, hafter⟩
      cleanupListener := fun hl => by
        obtain ⟨error, hstage⟩ := h.cleanupListener hl
        exact ⟨error, resolve_eq (fun what hw => by cases hw; rfl) hstage⟩
      follows := fun redirect outcome hstage => by
        obtain hsame | ⟨what, hwhat, -, hafter⟩ :=
          resolve_cases Awaited.isDisposal failure s.stage
        · exact h.follows redirect outcome (hsame.symm.trans hstage)
        · cases hafter.symm.trans hstage
          exact h.follows redirect none hwhat
      active := fun hl => by
        have hactive : s.active = true := (Bool.and_eq_true .. ▸ hl).1
        exact resolve_eq nofun (h.active hactive)
      followed := { h.followed with }
      held := by
        show (s.stage.resolve Awaited.isDisposal failure).Holds s.request.isStream s'.current
        rw [hcurrent']
        exact hheld' }
  · exact h

/-! ## The cleanup of the caller, and the end of the body -/

theorem Inv.cleanUp (h : s.Inv) (hs : s.stage = .settled none) (tracked active : Bool) :
    ({ s.updateResponse RoutedBrokerResponse.cleanUp with
      tracked := tracked, active := active } : RequestState).Inv := by
  have hheld := h.held
  rw [hs] at hheld
  obtain ⟨d, r, hd, howns, -⟩ := hheld
  obtain ⟨howns', hpromise⟩ := owns_cleanUp howns
  exact {
    routeListener := h.routeListener
    disposal := h.disposal
    cleanupListener := h.cleanupListener
    follows := h.follows
    active := fun _ => hs
    followed := { h.followed with }
    held := by
      show s.stage.Holds s.request.isStream (s.updateResponse RoutedBrokerResponse.cleanUp).current
      rw [hs]
      exact ⟨_, _, current_updateResponse hd howns.broker _, howns', .inl hpromise⟩ }

theorem Inv.callerCleanup (h : s.Inv) : s.callerCleanup.Inv := by
  unfold RequestState.callerCleanup
  split
  · rename_i hs
    split
    · exact h.cleanUp hs _ _
    · exact h.cleanUp hs s.tracked s.active
  · exact h

theorem Inv.close (h : s.Inv) : s.close.Inv := by
  unfold RequestState.close
  split
  · rename_i hactive
    have hi := (interrupts_abortController s).trans
      (interrupts_updateResponse s.abortController RoutedBrokerResponse.quieter_destroy)
    have hinv := h.interrupts hi
    exact hinv.cleanUp (hinv.active (hi.active.trans hactive)) _ _
  · exact h

theorem discarded_finish (h : d.Discarded) :
    (d.updateResponse RoutedBrokerResponse.finish).Discarded := by
  obtain ⟨hdiscard, hpending | ⟨r, hr, hlate, hdisposed⟩⟩ := h
  · unfold BrokerDispatch.updateResponse
    rw [hpending]
    exact ⟨hdiscard, .inl hpending⟩
  · rw [BrokerDispatch.updateResponse_eq hr]
    refine ⟨hdiscard, .inr ⟨_, rfl, ?_, hdisposed.finish⟩⟩
    unfold RoutedBrokerResponse.finish
    rw [if_neg (Bool.eq_false_iff.mp hdisposed.owned)]
    exact hlate

theorem owns_finish (howns : d.Owns r) :
    (d.updateResponse RoutedBrokerResponse.finish).Owns r.finish ∧
      r.finish.cleanupPromise = true := by
  rw [BrokerDispatch.updateResponse_eq howns.broker]
  refine ⟨⟨rfl, howns.owned.finish.1, fun hsettled => ?_⟩, howns.owned.finish.2⟩
  exact howns.quiet (RoutedBrokerResponse.isSettled_of_finish hsettled)

theorem cleanup_finish (h : r.Disposed) : r.finish.cleanup = r.cleanup := by
  unfold RoutedBrokerResponse.finish
  rw [if_neg (Bool.eq_false_iff.mp h.owned)]

theorem holds_finish (h : stage.Holds isStream (some d)) :
    stage.Holds isStream (some (d.updateResponse RoutedBrokerResponse.finish)) := by
  have hfailed : d.broker = .failed →
      (d.updateResponse RoutedBrokerResponse.finish).broker = .failed := fun hfailed => by
    unfold BrokerDispatch.updateResponse
    rw [hfailed]
    exact hfailed
  match stage, h with
  | .starting, hd | .awaiting .route _, hd | .awaiting .routed (some _), hd => cases hd
  | .awaiting .race none, ⟨_, hd, hpending⟩ =>
    cases hd
    refine ⟨_, rfl, ?_⟩
    unfold BrokerDispatch.updateResponse
    rw [hpending]
    exact hpending
  | .awaiting .race (some none), ⟨_, hd, r, hr, hresponse⟩ =>
    cases hd
    obtain hfresh | ⟨hdiscard, hlate, hdisposed⟩ := hresponse
    · rw [BrokerDispatch.updateResponse_eq hr]
      exact ⟨_, rfl, _, rfl, .inl hfresh.finish⟩
    · have hdiscarded := discarded_finish ⟨hdiscard, .inr ⟨r, hr, hlate, hdisposed⟩⟩
      obtain ⟨hdiscard', hpending | hresponse'⟩ := hdiscarded
      · rw [BrokerDispatch.updateResponse_eq hr] at hpending
        cases hpending
      · obtain ⟨r', hr', hlate', hdisposed'⟩ := hresponse'
        exact ⟨_, rfl, r', hr', .inr ⟨hdiscard', hlate', hdisposed'⟩⟩
  | .awaiting .race (some (some _)), ⟨_, hd, hlost⟩ =>
    cases hd
    exact ⟨_, rfl, hlost.imp hfailed discarded_finish⟩
  | .awaiting .dispatch (some _), ⟨_, r, hd, hr, hfresh⟩ =>
    cases hd
    rw [BrokerDispatch.updateResponse_eq hr]
    exact ⟨_, _, rfl, rfl, hfresh.finish⟩
  | .awaiting (.disposal _) _, ⟨_, r, hd, hr, hdisposed, hpending⟩ =>
    cases hd
    rw [BrokerDispatch.updateResponse_eq hr]
    exact ⟨_, _, rfl, rfl, hdisposed.finish,
      fun hnone => (cleanup_finish hdisposed).trans (hpending hnone)⟩
  | .awaiting .body _, ⟨_, r, hd, howns⟩ =>
    cases hd
    exact ⟨_, _, rfl, (owns_finish howns).1⟩
  | .awaiting (.cleanup _) _, ⟨_, r, hd, howns, _⟩ =>
    cases hd
    exact ⟨_, _, rfl, owns_finish howns⟩
  | .settled none, ⟨_, r, hd, howns, _⟩ =>
    cases hd
    obtain ⟨howns', hpromise⟩ := owns_finish howns
    exact ⟨_, _, rfl, howns', .inl hpromise⟩
  | .settled (some _), h =>
    intro _ hd
    cases hd
    obtain ⟨hquiet, hdone⟩ | ⟨r, howns, -⟩ := h d rfl
    · refine .inl ⟨?_, hdone.imp hfailed (Or.imp discarded_finish ?_)⟩
      · unfold BrokerDispatch.updateResponse
        split <;> exact hquiet
      · rintro ⟨r, hr, hdisposed⟩
        rw [BrokerDispatch.updateResponse_eq hr]
        exact ⟨_, rfl, hdisposed.finish⟩
    · exact .inr ⟨_, owns_finish howns⟩

theorem Inv.bodyFinishes (h : s.Inv) : s.bodyFinishes.Inv := by
  have hfinished : (s.updateResponse RoutedBrokerResponse.finish).Inv := by
    refine { h with followed := { h.followed with }, held := ?_ }
    show s.stage.Holds s.request.isStream (s.current.map _)
    have hheld := h.held
    obtain hd | ⟨d, hd⟩ := s.current.eq_none_or_eq_some
    · rw [hd] at hheld ⊢
      exact hheld
    · rw [hd] at hheld ⊢
      exact holds_finish hheld
  unfold RequestState.bodyFinishes
  dsimp only
  split
  · rename_i hactive
    exact hfinished.cleanUp (hfinished.active hactive) _ _
  · exact hfinished

theorem Inv.next (h : s.Inv) (a : Action) : (s.next a).Inv := by
  cases a with
  | continues found => exact h.continues found
  | abortSignal => exact h.interrupts (interrupts_abortSignal s)
  | timerFires => exact h.interrupts (interrupts_timerFires s)
  | disposeTimerFires => exact h.interrupts (interrupts_disposeTimerFires s)
  | routeSettles outcome => exact h.interrupts (interrupts_routeSettles s outcome)
  | brokerResponds status headers body => exact h.brokerResponds status headers body
  | brokerFails error => exact h.brokerFails error
  | bodyChunk bytes => exact h.interrupts (interrupts_bodyChunk s bytes)
  | bodyEnds outcome => exact h.interrupts (interrupts_bodyEnds s outcome)
  | bodyFinishes => exact h.bodyFinishes
  | cleanupSettles failure => exact h.cleanupSettles failure
  | cleanupObserved => exact h.interrupts (interrupts_cleanupObserved s)
  | callerCleanup => exact h.callerCleanup
  | close => exact h.close

end RequestState

end TransformHub.ApiRouter

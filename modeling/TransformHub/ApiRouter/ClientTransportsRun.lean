import TransformHub.ApiRouter.ClientTransportsInvariant

/-!
# Resources of a routed broker client

What is promised of a request, whatever the broker, the signal, the timers and the body do and in
whichever order (`requests_disciplined`).
-/

namespace TransformHub.ApiRouter

namespace RequestState

variable {s s' : RequestState}

/-! ## What a request waits for -/

section Definitions

variable (s : RequestState)

def responseIs (p : RoutedBrokerResponse → Prop) : Prop :=
  ∃ d r, s.current = some d ∧ d.broker = .responded r ∧ p r

/-- The request waits for the broker, for a body or for the cleanup of a response. -/
def Awaits : Prop :=
  match s.stage with
  | .awaiting .route none => True
  | .awaiting .race none => ∃ d, s.current = some d ∧ d.broker = .pending
  | .awaiting (.disposal _) none | .awaiting (.cleanup _) none =>
    s.responseIs fun r => r.cleanup = .pending
  | .awaiting .body none => s.responseIs fun r => r.body = .open
  | _ => False

/-- The steps that the request takes by itself. -/
def Action.isOwn : Action → Bool
  | .continues _ | .bodyEnds _ | .cleanupObserved => true
  | _ => false

/-- How far it is to the end without another redirect. -/
def stageRank : Stage → ℕ
  | .starting => 20
  | .awaiting what outcome =>
    (match what with
      | .route => 16
      | .routed => 14
      | .race => 12
      | .dispatch => 10
      | .disposal _ | .body => 8
      | .cleanup none => 4
      | .cleanup (some _) => 2) + if outcome.isNone then 1 else 0
  | .settled _ => 0

def rank : ℕ := 20 * (4 - s.redirects) + stageRank s.stage

structure Disciplined : Prop where
  /-- there are at most four redirects -/
  dispatches : s.dispatches.length ≤ 5
  once : ∀ r ∈ s.responses, r.cleanups ≤ 1
  /-- when the promise of the caller has settled, only the body of a stream that has been handed
  over is still to be finished before its response is cleaned up -/
  cleaned : ∀ error, s.stage = .settled error → ∀ r ∈ s.responses,
    r.cleanups = 1 ∨ s.request.isStream = true ∧ error = none ∧ r.body ≠ .finished
  /-- the promise of the caller settles, as soon as what the request waits for does -/
  settles : (∃ error, s.stage = .settled error) ∨ s.Awaits ∨
    ∃ a : Action, a.isOwn = true ∧ (s.next a).rank < s.rank
  settled : ∀ error, s.stage = .settled error → ∀ a, (s.next a).stage = .settled error
  /-- no listener and no timer is left once the cleanup has settled -/
  released : ∀ error, s.stage = .settled error →
    (∀ r ∈ s.responses, r.owned = true → r.cleanup.isSettled = true) → s.registered = false

end Definitions

/-! ## Steps come to an end -/

theorem rank_lt {n : ℕ} (hn : stageRank s.stage = n) (hredirects : s'.redirects = s.redirects)
    (hlt : stageRank s'.stage < n) : s'.rank < s.rank := by
  unfold rank
  rw [hredirects, hn]
  omega

theorem rank_settle {n : ℕ} (hn : stageRank s.stage = n) (hpos : 0 < n)
    (hredirects : s'.redirects = s.redirects) (error : Option BrokerError) :
    (s'.settle error).rank < s.rank := rank_lt hn hredirects hpos

theorem stageRank_waitForRoute (s : RequestState) (found : Found) :
    (s.waitForRoute found).redirects = s.redirects ∧
      stageRank (s.waitForRoute found).stage ≤ 17 := by
  have hrouted : 14 ≤ 17 := by decide
  unfold RequestState.waitForRoute
  split
  · exact ⟨rfl, hrouted⟩
  split
  · exact ⟨rfl, hrouted⟩
  · exact ⟨rfl, hrouted⟩
  · exact ⟨rfl, Nat.le_refl 17⟩

theorem rank_start (hs : s.stage = .starting) (found : Found) : (s.start found).rank < s.rank := by
  have hn : stageRank s.stage = 20 := by rw [hs]; rfl
  unfold RequestState.start
  split
  · exact rank_settle hn (by decide) rfl _
  split
  · exact rank_settle hn (by decide) rfl _
  · obtain ⟨hredirects, hle⟩ := stageRank_waitForRoute s found
    exact rank_lt hn hredirects (by omega)

theorem rank_dispatch (hs : s.stage = .awaiting .routed (some none)) (found : Found) :
    (s.dispatch found).rank < s.rank := by
  have hn : stageRank s.stage = 14 := by rw [hs]; rfl
  unfold RequestState.dispatch
  split
  · exact rank_settle hn (by decide) rfl _
  split
  · exact rank_settle hn (by decide) rfl _
  dsimp only
  generalize (BrokerDispatch.mk _ _ _ _ _ _ _ _ _) = d
  generalize hs' : (if found.abortsInside = true then
    ({ s with current := some d } : RequestState).abortSignal else _) = s'
  have hredirects : s'.redirects = s.redirects := by
    subst hs'
    split
    · exact (interrupts_abortSignal _).redirects
    · rfl
  cases found.throws with
  | some error => exact rank_settle hn (by decide) hredirects _
  | none => exact rank_lt hn hredirects (show 13 < 14 by decide)

variable {d : BrokerDispatch} {outcome : Option BrokerError}

theorem rank_raced (hd : s.current = some d) (hs : s.stage = .awaiting .race (some outcome)) :
    (s.raced outcome).rank < s.rank := by
  have hn : stageRank s.stage = 12 := by rw [hs]; rfl
  unfold RequestState.raced
  split
  · rename_i hnone
    cases hd.symm.trans hnone
  split
  · split
    · exact rank_settle hn (by decide) rfl _
    · exact rank_lt hn rfl (show 10 < 12 by decide)
  · exact rank_settle hn (by decide) rfl _

variable {r : RoutedBrokerResponse}

theorem rank_dispatched (hd : s.current = some d) (hr : d.broker = .responded r)
    (hs : s.stage = .awaiting .dispatch (some outcome)) : s.dispatched.rank < s.rank := by
  have hn : stageRank s.stage = 10 := by rw [hs]; rfl
  have hdispose : ∀ after abortRequest, (s.disposeRedirect after abortRequest).rank < s.rank := by
    intro after abortRequest
    unfold RequestState.disposeRedirect
    cases abortRequest with
    | false => exact rank_lt hn rfl (show 9 < 10 by decide)
    | true =>
      have hredirects := (interrupts_abortController s).redirects
      exact rank_lt hn hredirects (show 9 < 10 by decide)
  have hrespond : (s.respond d).rank < s.rank := by
    have hredirects : (s.responseCleanup d).redirects = s.redirects := by
      unfold responseCleanup
      dsimp only
      split
      · exact (interrupts_abortController _).redirects
      · rfl
    unfold RequestState.respond
    dsimp only
    split
    · exact rank_lt hn hredirects (show 0 < 10 by decide)
    · exact rank_lt hn hredirects (show 9 < 10 by decide)
  unfold RequestState.dispatched
  split
  · rename_i hnone
    cases hd.symm.trans hnone
  rename_i d' hd'
  cases hd.symm.trans hd'
  rw [BrokerDispatch.response?_eq hr]
  dsimp only
  split
  · exact hdispose _ _
  · exact hrespond
  split
  · exact hdispose _ _
  split <;> exact hdispose _ _

theorem Inv.rank_disposed (h : s.Inv) {after : AfterDisposal}
    (hs : s.stage = .awaiting (.disposal after) (some outcome)) (found : Found) :
    (s.disposed after outcome found).rank < s.rank := by
  have hn : stageRank s.stage = 8 := by rw [hs]; rfl
  unfold RequestState.disposed
  dsimp only
  split
  · exact rank_settle hn (by decide) rfl _
  · exact rank_settle hn (by decide) rfl _
  · rename_i redirect
    split
    · exact rank_settle hn (by decide) rfl _
    have hlt := h.follows redirect _ hs
    have hrank : s.rank = 20 * (4 - s.redirects) + 8 := congrArg (_ + ·) hn
    rw [hrank]
    split
    · show 20 * (4 - (s.redirects + 1)) + 0 < _
      omega
    · generalize hs' : RequestState.mk _ _ _ _ _ _ _ _ _ _ _ _ _ _ _ = s'
      have hredirects : s'.redirects = s.redirects + 1 := hs' ▸ rfl
      obtain ⟨hsame, hle⟩ := stageRank_waitForRoute s' found
      unfold rank
      rw [hsame, hredirects]
      omega

theorem stageRank_awaitCleanup (s : RequestState) (d : BrokerDispatch)
    (error : Option BrokerError) :
    (s.awaitCleanup d error).redirects = s.redirects ∧
      stageRank (s.awaitCleanup d error).stage ≤ if error.isNone then 5 else 3 := by
  unfold RequestState.awaitCleanup
  cases error with
  | none =>
    split
    · exact ⟨rfl, Nat.zero_le 5⟩
    · exact ⟨rfl, Nat.le_refl 5⟩
  | some error =>
    split
    · exact ⟨rfl, Nat.zero_le 3⟩
    · exact ⟨rfl, Nat.le_refl 3⟩

theorem rank_bodyRead (hd : s.current = some d) (hs : s.stage = .awaiting .body (some outcome))
    (found : Found) :
    (s.bodyRead outcome found).rank < s.rank := by
  have hn : stageRank s.stage = 8 := by rw [hs]; rfl
  have hawait : ∀ error,
      ((s.updateResponse RoutedBrokerResponse.cleanUp).awaitCleanup d error).rank < s.rank := by
    intro error
    obtain ⟨hredirects, hle⟩ := stageRank_awaitCleanup
      (s.updateResponse RoutedBrokerResponse.cleanUp) d error
    refine rank_lt hn hredirects ?_
    split at hle <;> omega
  unfold RequestState.bodyRead
  split
  · rename_i hnone
    cases hd.symm.trans hnone
  rename_i d' hd'
  cases hd.symm.trans hd'
  dsimp only
  split
  · exact hawait none
  split
  · exact rank_settle hn (by decide) rfl _
  · exact hawait _

theorem rank_cleaned (hd : s.current = some d) {error outcome : Option BrokerError}
    (hs : s.stage = .awaiting (.cleanup error) (some outcome)) :
    (s.cleaned error outcome).rank < s.rank := by
  have hn : stageRank s.stage = if error.isNone then 4 else 2 := by
    rw [hs]
    cases error <;> rfl
  have hsettle : ∀ e, (s.settle e).rank < s.rank := fun e =>
    rank_settle hn (by split <;> decide) rfl e
  unfold RequestState.cleaned
  split
  · rename_i hnone
    cases hd.symm.trans hnone
  rename_i d' _
  split
  · exact hsettle _
  rename_i e
  split
  · exact hsettle _
  split
  · obtain ⟨hredirects, hle⟩ := stageRank_awaitCleanup s d' (some e)
    exact rank_lt hn hredirects (Nat.lt_of_le_of_lt hle (show 3 < 4 by decide))
  · exact hsettle _

theorem rank_settles {what : Awaited} (hs : s.stage = .awaiting what none)
    (hstage : s'.stage = s.stage) (hredirects : s'.redirects = s.redirects) {p : Awaited → Bool}
    (hp : p what = true) (outcome : Option BrokerError) :
    (s'.settles p outcome).rank < s.rank := by
  have hlt : stageRank (.awaiting what (some outcome)) < stageRank (.awaiting what none) :=
    Nat.lt_succ_self _
  refine rank_lt rfl hredirects ?_
  show stageRank (s'.stage.resolve p outcome) < _
  rw [hstage, hs, Stage.resolve, if_pos hp]
  exact hlt

/-- As long as the promise of the caller has not settled, the request waits for something else or
takes a step towards the end. -/
theorem Inv.settles (h : s.Inv) : (∃ error, s.stage = .settled error) ∨ s.Awaits ∨
    ∃ a : Action, a.isOwn = true ∧ (s.next a).rank < s.rank := by
  let found : Found := ⟨1, .ready, false, none, false⟩
  have hheld := h.held
  have hgoes : (s.continues found).rank < s.rank →
      (∃ error, s.stage = .settled error) ∨ s.Awaits ∨
        ∃ a : Action, a.isOwn = true ∧ (s.next a).rank < s.rank :=
    fun hlt => .inr (.inr ⟨.continues found, rfl, hlt⟩)
  obtain ⟨stage, hs⟩ : ∃ stage, s.stage = stage := ⟨_, rfl⟩
  rw [hs] at hheld
  match stage, hs, hheld with
  | .starting, hs, _ =>
    refine hgoes ?_
    simp only [RequestState.continues, hs]
    exact rank_start hs found
  | .awaiting .route none, hs, _ => exact .inr (.inl (by rw [Awaits, hs]; trivial))
  | .awaiting .route (some outcome), hs, _ =>
    refine hgoes ?_
    simp only [RequestState.continues, hs]
    exact rank_lt (n := 16) (by rw [hs]; rfl) rfl (show 14 < 16 by decide)
  | .awaiting .routed (some none), hs, _ =>
    refine hgoes ?_
    simp only [RequestState.continues, hs]
    exact rank_dispatch hs found
  | .awaiting .routed (some (some error)), hs, _ =>
    refine hgoes ?_
    simp only [RequestState.continues, hs]
    exact rank_settle (n := 14) (by rw [hs]; rfl) (by decide) rfl _
  | .awaiting .race none, hs, hraced =>
    refine .inr (.inl ?_)
    rw [Awaits, hs]
    exact hraced
  | .awaiting .race (some outcome), hs, ⟨d, hd, _⟩ =>
    refine hgoes ?_
    simp only [RequestState.continues, hs]
    exact rank_raced hd hs
  | .awaiting .dispatch (some _), hs, ⟨d, r, hd, hr, _⟩ =>
    refine hgoes ?_
    simp only [RequestState.continues, hs]
    exact rank_dispatched hd hr hs
  | .awaiting (.disposal after) none, hs, ⟨d, r, hd, hr, _, hpending⟩ =>
    refine .inr (.inl ?_)
    rw [Awaits, hs]
    exact ⟨d, r, hd, hr, hpending rfl⟩
  | .awaiting (.disposal after) (some outcome), hs, _ =>
    refine hgoes ?_
    simp only [RequestState.continues, hs]
    exact h.rank_disposed hs found
  | .awaiting .body none, hs, ⟨d, r, hd, howns⟩ =>
    by_cases hopen : r.body = .open
    · refine .inr (.inl ?_)
      rw [Awaits, hs]
      exact ⟨d, r, hd, howns.broker, hopen⟩
    · have hnext : s.next (.bodyEnds none) = s.settles Awaited.isBody none := by
        simp only [RequestState.next, bodyEnds, hd, Option.bind_some,
          BrokerDispatch.response?_eq howns.broker, if_neg hopen]
      refine .inr (.inr ⟨.bodyEnds none, rfl, ?_⟩)
      rw [hnext]
      exact rank_settles hs rfl rfl rfl _
  | .awaiting .body (some outcome), hs, ⟨d, _, hd, _⟩ =>
    refine hgoes ?_
    simp only [RequestState.continues, hs]
    exact rank_bodyRead hd hs found
  | .awaiting (.cleanup error) none, hs, ⟨d, r, hd, howns, hpromise⟩ =>
    cases hcleanup : r.cleanup with
    | notCalled => exact absurd hcleanup (howns.owned.called hpromise).2
    | pending =>
      refine .inr (.inl ?_)
      rw [Awaits, hs]
      exact ⟨d, r, hd, howns.broker, hcleanup⟩
    | settled failure =>
      have hnext : s.next .cleanupObserved =
          { s with cleanupListener := false }.settles Awaited.isCleanup failure := by
        simp only [RequestState.next, cleanupObserved, hs, hd, Option.bind_some,
          BrokerDispatch.response?_eq howns.broker, hcleanup]
      refine .inr (.inr ⟨.cleanupObserved, rfl, ?_⟩)
      rw [hnext]
      exact rank_settles hs rfl rfl rfl _
  | .awaiting (.cleanup error) (some outcome), hs, ⟨d, _, hd, _, _⟩ =>
    refine hgoes ?_
    simp only [RequestState.continues, hs]
    exact rank_cleaned hd hs
  | .settled error, hs, _ => exact .inl ⟨error, hs⟩

/-! ## Requests that have settled -/

variable {error : Option BrokerError}

theorem Interrupts.settled (h : s.Interrupts s') (hs : s.stage = .settled error) :
    s'.stage = .settled error := by
  obtain hsame | ⟨what, outcome, hwhat, -⟩ := h.stage
  · exact hsame.trans hs
  · cases hs.symm.trans hwhat

theorem settled_next (hs : s.stage = .settled error) (a : Action) :
    (s.next a).stage = .settled error := by
  cases a with
  | continues found => simp only [RequestState.next, continues, hs]
  | abortSignal => exact (interrupts_abortSignal s).settled hs
  | timerFires => exact (interrupts_timerFires s).settled hs
  | disposeTimerFires => exact (interrupts_disposeTimerFires s).settled hs
  | routeSettles outcome => exact (interrupts_routeSettles s outcome).settled hs
  | bodyChunk bytes => exact (interrupts_bodyChunk s bytes).settled hs
  | bodyEnds outcome => exact (interrupts_bodyEnds s outcome).settled hs
  | cleanupObserved => exact (interrupts_cleanupObserved s).settled hs
  | brokerResponds status headers body =>
    simp only [RequestState.next, brokerResponds]
    split
    · exact hs
    split
    · exact resolve_eq nofun hs
    · exact hs
  | brokerFails e =>
    simp only [RequestState.next, brokerFails]
    split
    · exact hs
    split
    · exact resolve_eq nofun hs
    · exact hs
  | bodyFinishes =>
    simp only [RequestState.next, bodyFinishes]
    split <;> exact hs
  | cleanupSettles failure =>
    simp only [RequestState.next, cleanupSettles]
    split
    · exact hs
    split
    · refine resolve_eq nofun ?_
      dsimp only
      split <;> exact hs
    · exact hs
  | callerCleanup =>
    simp only [RequestState.next, callerCleanup]
    split
    · split <;> exact hs
    · exact hs
  | close =>
    simp only [RequestState.next, close]
    split
    · exact (interrupts_abortController s).settled hs
    · exact hs

theorem mem_responses : r ∈ s.responses ↔
    (∃ d ∈ s.past, d.broker = .responded r) ∨
      ∃ d, s.current = some d ∧ d.broker = .responded r := by
  unfold responses dispatches
  rw [List.mem_filterMap]
  simp only [List.mem_append, Option.mem_toList, BrokerDispatch.response?_eq_some]
  constructor
  · rintro ⟨d, hd | hd, hr⟩
    · exact .inl ⟨d, hd, hr⟩
    · exact .inr ⟨d, hd, hr⟩
  · rintro (⟨d, hd, hr⟩ | ⟨d, hd, hr⟩)
    · exact ⟨d, .inl hd, hr⟩
    · exact ⟨d, .inr hd, hr⟩

theorem once_of_held {stage : Stage} {isStream : Bool} (h : stage.Holds isStream (some d))
    (hr : d.broker = .responded r) :
    r.cleanups ≤ 1 := by
  have hdisposed : ∀ r₀, d.broker = .responded r₀ → r₀.Disposed → r.cleanups ≤ 1 := by
    intro r₀ hr₀ hdisposed
    cases hr.symm.trans hr₀
    exact Nat.le_of_eq hdisposed.cleanups
  have hfresh : ∀ r₀, d.broker = .responded r₀ → r₀.Fresh → r.cleanups ≤ 1 := by
    intro r₀ hr₀ hfresh
    cases hr.symm.trans hr₀
    exact Nat.le_trans (Nat.le_of_eq hfresh.cleanups) (Nat.zero_le 1)
  have howned : ∀ r₀, d.Owns r₀ → r.cleanups ≤ 1 := by
    intro r₀ howns
    cases hr.symm.trans howns.broker
    cases hpromise : r.cleanupPromise with
    | true => exact Nat.le_of_eq (howns.owned.called hpromise).1
    | false =>
      have hnone := (howns.owned.uncalled hpromise).1.cleanups
      exact Nat.le_trans (Nat.le_of_eq hnone) (Nat.zero_le 1)
  have hdiscarded : d.Discarded → r.cleanups ≤ 1 := by
    rintro ⟨-, hpending | ⟨r₀, hr₀, -, hdisposed₀⟩⟩
    · cases hr.symm.trans hpending
    · exact hdisposed r₀ hr₀ hdisposed₀
  match stage, h with
  | .awaiting .race none, ⟨_, hd, hpending⟩ =>
    cases hd
    cases hr.symm.trans hpending
  | .awaiting .race (some none), ⟨_, hd, r₀, hr₀, hresponse⟩ =>
    cases hd
    exact hresponse.elim (hfresh r₀ hr₀) fun hlate => hdisposed r₀ hr₀ hlate.2.2
  | .awaiting .race (some (some _)), ⟨_, hd, hlost⟩ =>
    cases hd
    refine hlost.elim (fun hfailed => ?_) hdiscarded
    cases hr.symm.trans hfailed
  | .awaiting .dispatch (some _), ⟨_, r₀, hd, hr₀, hfresh₀⟩ =>
    cases hd
    exact hfresh r₀ hr₀ hfresh₀
  | .awaiting (.disposal _) _, ⟨_, r₀, hd, hr₀, hdisposed₀, _⟩ =>
    cases hd
    exact hdisposed r₀ hr₀ hdisposed₀
  | .awaiting .body _, ⟨_, r₀, hd, howns⟩ | .awaiting (.cleanup _) _, ⟨_, r₀, hd, howns, _⟩
  | .settled none, ⟨_, r₀, hd, howns, _⟩ =>
    cases hd
    exact howned r₀ howns
  | .settled (some _), h =>
    obtain ⟨-, hfailed | hdiscarded₀ | ⟨r₀, hr₀, hdisposed₀⟩⟩ | ⟨r₀, howns, -⟩ := h d rfl
    · cases hr.symm.trans hfailed
    · exact hdiscarded hdiscarded₀
    · exact hdisposed r₀ hr₀ hdisposed₀
    · exact howned r₀ howns

theorem cleaned_of_held {isStream : Bool} (h : (Stage.settled error).Holds isStream (some d))
    (hr : d.broker = .responded r) :
    r.cleanups = 1 ∨ isStream = true ∧ error = none ∧ r.body ≠ .finished := by
  cases error with
  | none =>
    obtain ⟨_, r₀, hd, howns, hcleaned⟩ := h
    cases hd
    cases hr.symm.trans howns.broker
    cases hpromise : r.cleanupPromise with
    | true => exact .inl (howns.owned.called hpromise).1
    | false =>
      rw [hpromise] at hcleaned
      have hstream := hcleaned.resolve_left Bool.false_ne_true
      exact .inr ⟨hstream, rfl, (howns.owned.uncalled hpromise).2⟩
  | some e =>
    obtain ⟨-, hfailed | ⟨-, hpending | ⟨r₀, hr₀, -, hdisposed⟩⟩ | ⟨r₀, hr₀, hdisposed⟩⟩ |
      ⟨r₀, howns, hpromise⟩ := h d rfl
    · cases hr.symm.trans hfailed
    · cases hr.symm.trans hpending
    · cases hr.symm.trans hr₀
      exact .inl hdisposed.cleanups
    · cases hr.symm.trans hr₀
      exact .inl hdisposed.cleanups
    · cases hr.symm.trans howns.broker
      exact .inl (howns.owned.called hpromise).1

theorem not_registered (hquiet : d.Quiet)
    (hresponse : ∀ r, d.broker = .responded r → r.requestListener = false ∧ r.dispatchListener = false) :
    d.registered = false := by
  unfold BrokerDispatch.registered
  rw [hquiet.1, hquiet.2, Bool.or_self, Bool.false_or]
  cases hr : d.response? with
  | none => rfl
  | some r =>
    obtain ⟨hrequest, hdispatch⟩ := hresponse r (BrokerDispatch.response?_eq_some.mp hr)
    rw [Option.any_some, hrequest, hdispatch, Bool.or_self]

theorem released_of_held {isStream : Bool} (h : (Stage.settled error).Holds isStream (some d))
    (hsettled : ∀ r, d.broker = .responded r → r.owned = true → r.cleanup.isSettled = true) :
    d.registered = false := by
  have howned : ∀ r, d.Owns r → d.registered = false := by
    intro r howns
    have hcleaned := hsettled r howns.broker howns.owned.owned
    refine not_registered (howns.quiet hcleaned) fun r₀ hr₀ => ?_
    cases howns.broker.symm.trans hr₀
    exact howns.owned.released hcleaned
  have hdisposed : ∀ r, d.Quiet → d.broker = .responded r → r.Disposed → d.registered = false := by
    intro r hquiet hr hdisposed
    refine not_registered hquiet fun r₀ hr₀ => ?_
    cases hr.symm.trans hr₀
    exact ⟨hdisposed.requestListener, hdisposed.dispatchListener⟩
  cases error with
  | none =>
    obtain ⟨_, r, hd, howns, -⟩ := h
    cases hd
    exact howned r howns
  | some e =>
    obtain ⟨hquiet, hfailed | ⟨-, hpending | ⟨r, hr, -, hdisposed₀⟩⟩ | ⟨r, hr, hdisposed₀⟩⟩ |
      ⟨r, howns, -⟩ := h d rfl
    · refine not_registered hquiet fun r hr => ?_
      cases hr.symm.trans hfailed
    · refine not_registered hquiet fun r hr => ?_
      cases hr.symm.trans hpending
    · exact hdisposed r hquiet hr hdisposed₀
    · exact hdisposed r hquiet hr hdisposed₀
    · exact howned r howns

theorem Inv.disciplined (h : s.Inv) : s.Disciplined where
  dispatches := by
    have hcurrent : s.current.toList.length ≤ 1 := by
      cases s.current with
      | none => exact Nat.zero_le 1
      | some d => exact Nat.le_refl 1
    have hpast := h.followed.length
    have hredirects := h.followed.redirects
    unfold RequestState.dispatches
    rw [List.length_append]
    omega
  once := fun r hr => by
    obtain ⟨d, hd, hbroker⟩ | ⟨d, hd, hbroker⟩ := mem_responses.mp hr
    · obtain ⟨-, r₀, hr₀, hdisposed⟩ := h.followed.past d hd
      cases hbroker.symm.trans hr₀
      exact Nat.le_of_eq hdisposed.cleanups
    · have hheld := h.held
      rw [hd] at hheld
      exact once_of_held hheld hbroker
  cleaned := fun error hs r hr => by
    obtain ⟨d, hd, hbroker⟩ | ⟨d, hd, hbroker⟩ := mem_responses.mp hr
    · obtain ⟨-, r₀, hr₀, hdisposed⟩ := h.followed.past d hd
      cases hbroker.symm.trans hr₀
      exact .inl hdisposed.cleanups
    · have hheld := h.held
      rw [hs, hd] at hheld
      exact cleaned_of_held hheld hbroker
  settles := h.settles
  settled := fun error hs a => settled_next hs a
  released := fun error hs hsettled => by
    have hlisteners : s.routeListener = false ∧ s.disposeListener = false ∧
        s.disposeTimer = false ∧ s.cleanupListener = false := by
      refine ⟨?_, ?_, ?_, ?_⟩ <;> refine Bool.eq_false_iff.mpr fun hl => ?_
      · cases hs.symm.trans (h.routeListener hl)
      · obtain ⟨after, outcome, hstage⟩ := h.disposal (.inl hl)
        cases hs.symm.trans hstage
      · obtain ⟨after, outcome, hstage⟩ := h.disposal (.inr hl)
        cases hs.symm.trans hstage
      · obtain ⟨e, hstage⟩ := h.cleanupListener hl
        cases hs.symm.trans hstage
    obtain ⟨hroute, hdispose, htimer, hcleanup⟩ := hlisteners
    unfold registered
    rw [hroute, hdispose, htimer, hcleanup, Bool.or_self, Bool.or_self, Bool.or_self, Bool.false_or,
      List.any_eq_false]
    intro d hd
    rw [Bool.not_eq_true]
    obtain hd | hd := List.mem_append.mp hd
    · obtain ⟨hquiet, r, hr, hdisposed⟩ := h.followed.past d hd
      refine not_registered hquiet fun r₀ hr₀ => ?_
      cases hr.symm.trans hr₀
      exact ⟨hdisposed.requestListener, hdisposed.dispatchListener⟩
    · have hcurrent := Option.mem_toList.mp hd
      have hheld := h.held
      rw [hs, hcurrent] at hheld
      exact released_of_held hheld fun r hr => hsettled r (mem_responses.mpr (.inr ⟨d, hcurrent, hr⟩))

end RequestState

/-! ## Runs of the transport -/

namespace Verser2ClientTransport

variable {t : Verser2ClientTransport}

theorem inv_next (h : ∀ s ∈ t.requests, s.Inv) (a : Action) : ∀ s ∈ (t.next a).requests, s.Inv := by
  intro s hs
  cases a with
  | request request =>
    obtain hs | hs := List.mem_append.mp hs
    · exact h s hs
    · cases List.mem_singleton.mp hs
      exact RequestState.inv_new request
  | step k a =>
    obtain ⟨k', hk'⟩ := List.mem_iff_getElem?.mp hs
    rw [Verser2ClientTransport.next, List.getElem?_modify] at hk'
    obtain ⟨s₀, hs₀, rfl⟩ := Option.map_eq_some_iff.mp hk'
    have hinv := h s₀ (List.mem_of_getElem? hs₀)
    split
    · exact hinv.next a
    · exact hinv
  | close =>
    obtain ⟨s₀, hs₀, rfl⟩ := List.mem_map.mp hs
    exact (h s₀ hs₀).close

/-- In every run, each request cleans its responses up once, has at most four redirects, settles
once, and leaves no listener and no timer when the cleanup has settled. -/
theorem requests_disciplined (h : system.Reachable System.anyStep t) :
    ∀ s ∈ t.requests, s.Disciplined := by
  have hinv : ∀ s ∈ t.requests, s.Inv :=
    h.invariant_ofFun (I := fun t => ∀ s ∈ t.requests, s.Inv)
      (fun s hs => absurd hs List.not_mem_nil) fun t a ht _ => inv_next ht a
  exact fun s hs => (hinv s hs).disciplined

/-- A request with a signal and a deadline, the body of which is read. -/
def unaryRequest : ClientRequest := ⟨"space-a", "/", true, 1000, false, false, 1048576⟩

/-- What a request finds that has time left and a route. -/
def inTime : Found := ⟨1000, .ready, false, none, false⟩

/-- The request is made and dispatched, and the broker responds. -/
def answered : List Action :=
  .request unaryRequest :: ([.continues inTime, .continues inTime, .brokerResponds 200 [] .open,
    .continues inTime, .continues inTime] : List RequestState.Action).map (.step 0)

def completed : List Action :=
  answered ++ ([.bodyFinishes, .bodyEnds none, .continues inTime, .cleanupSettles none,
    .cleanupObserved, .continues inTime] : List RequestState.Action).map (.step 0)

theorem requests_disciplined_completed :
    (completed.foldl next ⟨[]⟩).requests.map RequestState.stage = [.settled none] ∧
      ∀ s ∈ (completed.foldl next ⟨[]⟩).requests, s.Disciplined :=
  ⟨by decide +kernel, requests_disciplined (System.reachable_foldl completed)⟩

/-- The deadline passes while the body is read, and the cleanup of the response takes its time. -/
def interrupted : List Action :=
  answered ++ ([.timerFires, .bodyFinishes, .bodyEnds none, .continues inTime] :
    List RequestState.Action).map (.step 0)

/-- The request has settled and its body is finished, but the listeners on its signal are left. -/
theorem interrupted_listens : ¬ ∀ t, system.Reachable System.anyStep t → ∀ s ∈ t.requests,
    ∀ error, s.stage = .settled error → (∀ r ∈ s.responses, r.body = .finished) →
      s.registered = false := by
  intro hall
  have hone : (interrupted.foldl next ⟨[]⟩).requests.length = 1 := by decide +kernel
  obtain ⟨s, hs⟩ := List.length_eq_one_iff.mp hone
  have hmem : s ∈ (interrupted.foldl next ⟨[]⟩).requests := hs ▸ List.mem_singleton_self s
  have hstage : (interrupted.foldl next ⟨[]⟩).requests.all fun s =>
      s.stage = .settled (some (.timeout 1000 "space-a")) ∧
        s.responses.all (·.body = .finished) ∧ s.registered := by decide +kernel
  obtain ⟨hsettled, hfinished, hregistered⟩ := of_decide_eq_true (List.all_eq_true.mp hstage s hmem)
  have hnone := hall _ (System.reachable_foldl interrupted) s hmem _ hsettled fun r hr =>
    of_decide_eq_true (List.all_eq_true.mp hfinished r hr)
  rw [hregistered] at hnone
  cases hnone

end Verser2ClientTransport

end TransformHub.ApiRouter

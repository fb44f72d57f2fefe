import TransformHub.Host.CsiControllerCalls

/-!
# The terminal transition of a controller

The terminal transition emits `terminated` and then `end`, each once and after the removal.
-/

namespace TransformHub.Host.CsiController

open CSIController

/-! ## What the steps leave as it is -/

def ExitResult.Terminal (result : ExitResult) : Prop :=
  ∀ status, result.status = some status → status.terminal = true

theorem terminal_mapRunnerExitCode (exitcode : ℤ) (entrypointPath : String) {result : ExitResult}
    (h : mapRunnerExitCode exitcode entrypointPath = .ok result ∨
      mapRunnerExitCode exitcode entrypointPath = .error result) : result.Terminal := by
  have hof {status : InstanceStatus} {message : Option String} {code : Option ℤ}
      (hstatus : status.terminal = true) : (ExitResult.mk message code (some status)).Terminal := by
    intro status' heq
    cases heq
    exact hstatus
  unfold mapRunnerExitCode at h
  dsimp only at h
  split_ifs at h
  all_goals rcases h with h | h <;> cases h <;> exact hof rfl

/-- The removal is at most asked for, and no call is dropped. -/
structure Frame (s s' : CSIController) : Prop where
  completed : s'.removalCompleted = s.removalCompleted
  promise : s.removalPromise = true → s'.removalPromise = true
  asked : s'.removalPromise = true → s.removalPromise = true ∨ s.instanceMain.isSome = true
  ended : s'.endEmitted = s.endEmitted
  emitted : s'.emitted = s.emitted
  kept : ∀ t ∈ s.tasks, t ∈ s'.tasks
  awaits : ∀ t ∈ s'.tasks, t ∈ s.tasks ∨ (t.awaitsRemoval = true → s'.removing = true)
  launched : ∀ t ∈ s'.tasks, t ∈ s.tasks ∨ (t.launched = true →
    s.instanceMain.isSome = true ∨ s.removalPromise = true ∨ s.removalCompleted = true)
  initialized : s.initialized ≠ none → s'.initialized ≠ none
  adapter : s'.instanceMain.isSome = s.instanceMain.isSome
  reports : ∀ result, s'.instancePromise = some result →
    s.instancePromise = some result ∨ result.Terminal

/-- The terminal transition is not touched either. -/
structure Steady (s s' : CSIController) : Prop extends Frame s s' where
  transition : s'.terminalTransition = s.terminalTransition

variable {s s' s'' : CSIController}

theorem Frame.removing (h : Frame s s') (hremoving : s.removing = true) : s'.removing = true := by
  unfold CSIController.removing at hremoving ⊢
  rw [Bool.and_eq_true] at hremoving ⊢
  rw [h.completed]
  exact ⟨h.promise hremoving.1, hremoving.2⟩

theorem Frame.refl (s : CSIController) : Frame s s where
  completed := rfl
  promise := id
  asked := .inl
  ended := rfl
  emitted := rfl
  kept _ := id
  awaits _ := .inl
  launched _ := .inl
  initialized := id
  adapter := rfl
  reports _ := .inl

theorem Steady.refl (s : CSIController) : Steady s s := ⟨.refl s, rfl⟩

theorem Steady.other (hcompleted : s'.removalCompleted = s.removalCompleted)
    (hpromise : s'.removalPromise = s.removalPromise) (hended : s'.endEmitted = s.endEmitted)
    (hemitted : s'.emitted = s.emitted) (htasks : s'.tasks = s.tasks)
    (htransition : s'.terminalTransition = s.terminalTransition)
    (hinitialized : s.initialized ≠ none → s'.initialized ≠ none)
    (hmain : s'.instanceMain = s.instanceMain) : Steady s s' where
  completed := hcompleted
  promise := by
    rw [hpromise]
    exact id
  asked := by
    rw [hpromise]
    exact .inl
  ended := hended
  emitted := hemitted
  kept := by
    rw [htasks]
    exact fun _ => id
  awaits := by
    rw [htasks]
    exact fun _ => .inl
  launched := by
    rw [htasks]
    exact fun _ => .inl
  initialized := hinitialized
  adapter := by rw [hmain]
  reports := by
    unfold instancePromise
    rw [hmain]
    exact fun _ => .inl
  transition := htransition

theorem Steady.main (hadapter : s.instanceMain.isSome = true) (main : InstanceMain)
    (status : InstanceStatus) (endOfSequence : Option (Option ℤ))
    (hreports : ∀ result, main = .settled result → result.Terminal) :
    Steady s { s with
      status := status
      endOfSequence := endOfSequence
      instanceMain := some main } where
  completed := rfl
  promise := id
  asked := .inl
  ended := rfl
  emitted := rfl
  kept _ := id
  awaits _ := .inl
  launched _ := .inl
  initialized := id
  adapter := hadapter.symm
  reports result hresult := by
    unfold instancePromise at hresult
    split at hresult
    · next result' hmain =>
        cases hresult
        apply Or.inr
        apply hreports
        cases hmain
        rfl
    · cases hresult
  transition := rfl

theorem Frame.trans (h : Frame s s') (h' : Frame s' s'') : Frame s s'' where
  completed := h'.completed.trans h.completed
  promise := h'.promise ∘ h.promise
  asked hasked := by
    rcases h'.asked hasked with hpromise | hadapter
    · exact h.asked hpromise
    · rw [h.adapter] at hadapter
      exact .inr hadapter
  ended := h'.ended.trans h.ended
  emitted := h'.emitted.trans h.emitted
  kept t ht := h'.kept t (h.kept t ht)
  awaits t ht := by
    rcases h'.awaits t ht with ht | ht
    · exact (h.awaits t ht).imp_right fun hremoving hawaits => h'.removing (hremoving hawaits)
    · exact .inr ht
  launched t ht := by
    rcases h'.launched t ht with ht | ht
    · exact h.launched t ht
    · apply Or.inr
      intro hlaunched
      rcases ht hlaunched with hadapter | hpromise | hcompleted
      · rw [h.adapter] at hadapter
        exact .inl hadapter
      · rcases h.asked hpromise with hpromise | hadapter
        · exact .inr (.inl hpromise)
        · exact .inl hadapter
      · rw [h.completed] at hcompleted
        exact .inr (.inr hcompleted)
  initialized := h'.initialized ∘ h.initialized
  adapter := h'.adapter.trans h.adapter
  reports result hresult := (h'.reports result hresult).elim (h.reports result) .inr

theorem Steady.trans (h : Steady s s') (h' : Steady s' s'') : Steady s s'' :=
  ⟨h.toFrame.trans h'.toFrame, h'.transition.trans h.transition⟩

/-! ## One lemma for each operation -/

theorem steady_spawn (t : Task) (hawaits : t.awaitsRemoval = true → s.removing = true)
    (hlaunched : t.launched = true →
      s.instanceMain.isSome = true ∨ s.removalPromise = true ∨ s.removalCompleted = true) :
    Steady s (s.spawn t) where
  completed := rfl
  promise := id
  asked := .inl
  ended := rfl
  emitted := rfl
  kept t' ht' := List.mem_append_left _ ht'
  awaits t' ht' := by
    rcases List.mem_append.mp ht' with ht' | ht'
    · exact .inl ht'
    · rw [List.mem_singleton.mp ht']
      exact .inr hawaits
  launched t' ht' := by
    rcases List.mem_append.mp ht' with ht' | ht'
    · exact .inl ht'
    · rw [List.mem_singleton.mp ht']
      exact .inr hlaunched
  initialized := id
  adapter := rfl
  reports _ := .inl
  transition := rfl

theorem steady_spawn_plain {t : Task} (hawaits : t.awaitsRemoval = false)
    (hlaunched : t.launched = false) : Steady s (s.spawn t) := by
  apply steady_spawn t
  · intro h
    rw [hawaits] at h
    cases h
  · intro h
    rw [hlaunched] at h
    cases h

section

variable (s)
include s

theorem removeInstance_cases :
    s.removeInstance = some (some true, s) ∧ s.removalCompleted = true ∨
    (∃ s', s.removeInstance = some (none, s') ∧ Steady s s' ∧ s'.removing = true) ∨
    s.removeInstance = none ∧ s.instanceMain.isSome = false ∧ s.removalCompleted = false := by
  unfold removeInstance
  by_cases hcompleted : s.removalCompleted = true
  · rw [if_pos hcompleted]
    exact .inl ⟨rfl, hcompleted⟩
  · rw [if_neg hcompleted]
    rw [Bool.not_eq_true] at hcompleted
    by_cases hpromise : s.removalPromise = true
    · rw [if_pos hpromise]
      refine .inr (.inl ⟨s, rfl, .refl s, ?_⟩)
      unfold CSIController.removing
      rw [hpromise, hcompleted]
      rfl
    · rw [if_neg hpromise]
      by_cases hadapter : s.instanceMain.isNone = true
      · rw [if_pos hadapter]
        rw [Option.isNone_iff_eq_none] at hadapter
        refine .inr (.inr ⟨rfl, ?_, hcompleted⟩)
        rw [hadapter]
        rfl
      · rw [if_neg hadapter]
        have hasked : s.instanceMain.isSome = true := by
          rw [Option.isNone_iff_eq_none] at hadapter
          exact Option.isSome_iff_ne_none.mpr hadapter
        refine .inr (.inl ⟨{ s with removalPromise := true }, rfl, ?_, ?_⟩)
        · exact ⟨⟨rfl, fun _ => rfl, fun _ => .inr hasked, rfl, rfl, fun _ => id, fun _ => .inl,
            fun _ => .inl, id, rfl, fun _ => .inl⟩, rfl⟩
        · unfold CSIController.removing
          rw [hcompleted]
          rfl

theorem steady_requestRemoval : Steady s s.requestRemoval := by
  unfold requestRemoval
  rcases removeInstance_cases s with ⟨hremove, -⟩ | ⟨s', hremove, hsteady, -⟩ | ⟨hremove, -⟩
  · rw [hremove]
    exact .refl s
  · rw [hremove]
    exact hsteady
  · rw [hremove]
    exact .refl s

theorem steady_awaitTerminalCompletion : Steady s s.awaitTerminalCompletion := by
  unfold awaitTerminalCompletion
  split_ifs
  · exact steady_spawn_plain rfl rfl
  · exact .refl s

theorem steady_stop : Steady s s.stop := by
  unfold stop
  split_ifs
  · exact .refl s
  · have hstatus : Steady s { s with status := .stopping } :=
      .other rfl rfl rfl rfl rfl rfl id rfl
    exact (hstatus.trans (steady_awaitTerminalCompletion _)).trans (steady_spawn_plain rfl rfl)

theorem steady_kill (removeImmediately : Bool) : Steady s (s.kill removeImmediately) := by
  unfold kill
  have hdelay : Steady s (if removeImmediately then
      { s with instanceLifetimeExtensionDelay := 0 } else s) := by
    split_ifs
    · exact .other rfl rfl rfl rfl rfl rfl id rfl
    · exact .refl s
  generalize (if removeImmediately then
    { s with instanceLifetimeExtensionDelay := 0 } else s) = s' at hdelay
  dsimp only
  split_ifs
  · exact hdelay.trans (steady_requestRemoval s')
  · exact hdelay
  · exact hdelay.trans (steady_requestRemoval s')
  · have hstatus : Steady s' { s' with status := .killing } :=
      .other rfl rfl rfl rfl rfl rfl id rfl
    apply (hdelay.trans hstatus).trans
    exact (steady_awaitTerminalCompletion _).trans (steady_spawn_plain rfl rfl)

theorem steady_failReadiness : Steady s s.failReadiness := by
  have hreadiness : Steady s { s with readinessState := .errored } :=
    .other rfl rfl rfl rfl rfl rfl id rfl
  exact (hreadiness.trans (steady_kill _ true)).trans (steady_spawn_plain rfl rfl)

theorem steady_settleInitialized (outcome : Except ExitResult Unit) :
    Steady s (s.settleInitialized outcome) := by
  refine .other rfl rfl rfl rfl rfl rfl ?_ rfl
  intro _ hnone
  have hor : s.initialized.or (some outcome) = none := hnone
  rw [Option.or_eq_none_iff] at hor
  cases hor.2

theorem steady_exited (outcome : Except (Option ℤ) ℤ) : Steady s (s.exited outcome) := by
  unfold exited
  split
  · next hmain =>
      have hadapter : s.instanceMain.isSome = true := by rw [hmain]; rfl
      cases outcome with
      | ok exitcode =>
        dsimp only
        split_ifs <;> exact .main hadapter _ _ _ nofun
      | error code => exact .main hadapter _ _ _ nofun
  · exact .refl s

theorem steady_settleInstance {outcome : Except ExitResult ExitResult}
    (hadapter : s.instanceMain.isSome = true)
    (hreports : ∀ result, outcome = .ok result ∨ outcome = .error result → result.Terminal) :
    Steady s (s.settleInstance outcome) := by
  have hsettled (result : ExitResult) (hresult : result.Terminal) :
      Steady s { s with instanceMain := some (.settled result) } := by
    apply Steady.main hadapter
    intro result' heq
    cases heq
    exact hresult
  cases outcome with
  | ok result => exact hsettled result (hreports result (.inl rfl))
  | error error =>
    exact (hsettled error (hreports error (.inr rfl))).trans (steady_settleInitialized _ _)

theorem steady_cleaned (ok : Bool) (code : Option ℤ)
    (message : Option String) : Steady s (s.cleaned ok code message) := by
  have hadapter {main : InstanceMain} (hmain : s.instanceMain = some main) :
      s.instanceMain.isSome = true := by
    rw [hmain]
    rfl
  unfold cleaned
  split
  · next hmain =>
      split_ifs <;> exact .main (hadapter hmain) _ _ _ nofun
  · next hmain =>
      split_ifs
      · apply steady_settleInstance s (hadapter hmain)
        exact fun _ => terminal_mapRunnerExitCode _ _
      · exact .main (hadapter hmain) _ _ _ nofun
  · next hmain =>
      split_ifs
      · apply steady_settleInstance s (hadapter hmain)
        exact fun _ => terminal_mapRunnerExitCode _ _
      · apply steady_settleInstance s (hadapter hmain)
        rintro result (heq | heq)
        · cases heq
        · cases heq
          intro status hstatus
          cases hstatus
  · exact .refl s

theorem steady_connect (broker : Bool) : Steady s (s.connect broker) := by
  unfold connect
  cases broker with
  | true => exact .other rfl rfl rfl rfl rfl rfl id rfl
  | false =>
    have hstreams : Steady s { s with downStreams := true } :=
      .other rfl rfl rfl rfl rfl rfl id rfl
    exact hstreams.trans (steady_settleInitialized _ _)

theorem steady_ping (message : PingMessage) : Steady s (s.ping message) := by
  unfold ping
  have hstatus : Steady s { s with status := message.status.getD .running } :=
    .other rfl rfl rfl rfl rfl rfl id rfl
  generalize { s with status := message.status.getD .running } = s' at hstatus
  cases message.payload with
  | none => exact hstatus
  | some inputTopic =>
    apply hstatus.trans
    have hrequires : Steady s' { s' with
        requires := (truthy s'.requires).or ((truthy s'.inputTopic).or inputTopic) } :=
      .other rfl rfl rfl rfl rfl rfl id rfl
    exact hrequires.trans (steady_spawn_plain rfl rfl)

theorem steady_pang (requires : Option String) : Steady s (s.pang requires) := by
  unfold pang
  dsimp only
  split_ifs
  · apply Steady.trans _ (steady_settleInitialized _ _)
    exact .other rfl rfl rfl rfl rfl rfl id rfl
  · exact .other rfl rfl rfl rfl rfl rfl id rfl

theorem steady_handleReadinessMessage (ready : Bool) :
    Steady s (s.handleReadinessMessage ready) := by
  unfold handleReadinessMessage
  split_ifs
  · exact .refl s
  · exact .other rfl rfl rfl rfl rfl rfl id rfl
  · exact steady_failReadiness s

theorem steady_unless (skipped : Bool) {t : Task}
    (hawaits : t.awaitsRemoval = false) (hlaunched : t.launched = false) :
    Steady s (if skipped then s else s.spawn t) := by
  split_ifs
  · exact .refl s
  · exact steady_spawn_plain hawaits hlaunched

end

/-! ## Calls that begin the transition -/

/-- A transition that goes on by itself, once the removal has settled. -/
def Transition.pending : Transition → Bool
  | .fulfilled | .rejected => false
  | _ => true

/-- The terminal transition goes on or is going to begin. -/
def Owed (s : CSIController) : Prop :=
  (∃ tr, s.terminalTransition = some tr ∧ tr.pending = true) ∨ ∃ t ∈ s.tasks, t.begins s = true

/-- What `transitionToTerminal` does. -/
inductive Begun (s s' : CSIController) : Prop where
  | stored : s.terminalTransition ≠ none → s' = s → Begun s s'
  | removing {code : Option ℤ} : s.terminalTransition = none → Frame s s' →
      s'.terminalTransition = some (.removing code none) → s'.removing = true → Begun s s'
  | removed {code : Option ℤ} : s.terminalTransition = none → Frame s s' →
      s'.terminalTransition = some (.removing code (some true)) → s'.removalCompleted = true →
      Begun s s'
  /-- without an adapter -/
  | thrown : s.terminalTransition = none → Frame s s' →
      s'.terminalTransition = some .fulfilled → s.instanceMain.isSome = false →
      s.removalCompleted = false → Begun s s'

theorem begun_transitionToTerminal (s : CSIController) (code : Option ℤ)
    (status : Option InstanceStatus) (reason : Option String) :
    Begun s (s.transitionToTerminal code status reason) := by
  unfold transitionToTerminal
  split_ifs with hstored
  · rw [Option.isSome_iff_ne_none] at hstored
    exact .stored hstored rfl
  · rw [Option.not_isSome_iff_eq_none] at hstored
    have hexit : Steady s
        ({ s with status := status.getD s.status }.setExitInfo code (reason.getD "")) :=
      .other rfl rfl rfl rfl rfl rfl id rfl
    have hadapter : ({ s with status := status.getD s.status }.setExitInfo code
        (reason.getD "")).instanceMain = s.instanceMain := rfl
    have hcompleted : ({ s with status := status.getD s.status }.setExitInfo code
        (reason.getD "")).removalCompleted = s.removalCompleted := rfl
    generalize { s with status := status.getD s.status }.setExitInfo code (reason.getD "") = s₁
      at hexit hadapter hcompleted
    have hstore {s₂ : CSIController} (h : Steady s₁ s₂) (tr : Transition) :
        Frame s { s₂ with terminalTransition := some tr } := by
      apply hexit.toFrame.trans
      exact ⟨h.completed, h.promise, h.asked, h.ended, h.emitted, h.kept, h.awaits, h.launched,
        h.initialized, h.adapter, h.reports⟩
    rcases removeInstance_cases s₁ with ⟨hremove, hdone⟩ | ⟨s₂, hremove, hsteady, hremoving⟩ |
      ⟨hremove, hnone, hdone⟩
    · dsimp only
      rw [hremove]
      exact .removed hstored (hstore (.refl s₁) _) rfl hdone
    · dsimp only
      rw [hremove]
      exact .removing hstored (hstore hsteady _) rfl hremoving
    · dsimp only
      rw [hremove]
      rw [hadapter] at hnone
      rw [hcompleted] at hdone
      exact .thrown hstored (hstore (.refl s₁) _) rfl hnone hdone

/-- How a call goes on: it leaves the transition alone, or it begins it. -/
inductive Runs (s : CSIController) (t : Task) (outcome : Outcome) (s' : CSIController) : Prop where
  | steady : Steady s s' →
      (t.begins s = true → s'.coordinated = true ∨ ∃ t' ∈ s'.tasks, t'.begins s' = true) →
      Runs s t outcome s'
  | begin {s₁ : CSIController} : Steady s s₁ → Begun s₁ s' →
      t.bare outcome = true ∨ s.instanceMain.isSome = true → Runs s t outcome s'

theorem adapter_of_instancePromise {result : ExitResult}
    (h : s.instancePromise = some result) : s.instanceMain.isSome = true := by
  unfold instancePromise at h
  split at h
  · next hmain => rw [hmain]; rfl
  · cases h

theorem Runs.plain {t : Task} {outcome : Outcome} (hbegins : t.begins s = false)
    (h : Steady s s') : Runs s t outcome s' := by
  apply Runs.steady h
  rw [hbegins]
  exact nofun

theorem runs_main {outcome : Outcome} : Runs s .initialized outcome s.main := by
  unfold main
  have hstatus : Steady s { s with status := .running } := .other rfl rfl rfl rfl rfl rfl id rfl
  dsimp only
  split_ifs
  · apply Runs.steady (hstatus.trans (steady_spawn_plain rfl rfl))
    intro _
    exact .inr ⟨.main, List.mem_append_right _ (List.mem_singleton.mpr rfl), rfl⟩
  · have herrored : Steady s { s with status := .errored } := .other rfl rfl rfl rfl rfl rfl id rfl
    exact .begin herrored (begun_transitionToTerminal _ _ _ _) (.inl rfl)

theorem Beside.steady (h : Beside s s') : Steady s s' := by
  cases h
  exact .other rfl rfl rfl rfl rfl rfl id rfl

theorem steady_spawnRemoval {removal : Option Bool} {u : Task}
    (hremove : s.removeInstance = some (removal, s'))
    (hu : u = .killForced removal ∨ u = .killExitRemoving removal) : Steady s (s'.spawn u) := by
  rcases removeInstance_cases s with ⟨hdone, hcompleted⟩ | ⟨s₁, hasked, hsteady, hremoving⟩ |
    ⟨hnone, -⟩
  · cases hdone.symm.trans hremove
    refine steady_spawn _ (fun hawaits => ?_) fun _ => .inr (.inr hcompleted)
    rcases hu with rfl | rfl <;> cases hawaits
  · cases hasked.symm.trans hremove
    refine hsteady.trans (steady_spawn _ (fun _ => hremoving) fun _ => .inr (.inl ?_))
    unfold CSIController.removing at hremoving
    rw [Bool.and_eq_true] at hremoving
    exact hremoving.1
  · cases hnone.symm.trans hremove

theorem runs_of_run {t : Task} {outcome : Outcome}
    (hlaunched : t.launched = true → s.instanceMain.isSome = true)
    (h : s.run t outcome = some s') : Runs s t outcome s' := by
  have hspawns {s₁ : CSIController} {u : Task} (hsteady : Steady s (s₁.spawn u))
      (hbegins : t.begins s = false ∨ ∀ s, u.begins s = true) : Runs s t outcome (s₁.spawn u) := by
    rcases hbegins with hbegins | hbegins
    · exact .plain hbegins hsteady
    · exact .steady hsteady fun _ =>
        .inr ⟨u, List.mem_append_right _ (List.mem_singleton.mpr rfl), hbegins _⟩
  cases resumes_run h with
  | begins code reason _ hadapter _ =>
    refine .begin (.refl s) (begun_transitionToTerminal s _ _ _) (hadapter.imp_right fun h => ?_)
    rcases h with h | h
    · exact hlaunched h
    · obtain ⟨result, hresult⟩ := Option.isSome_iff_exists.mp h
      exact adapter_of_instancePromise hresult
  | main ht _ =>
    subst ht
    exact runs_main
  | passes _ hbegins hbeside =>
    rcases hbegins with hbegins | hcoordinated
    · exact .plain hbegins hbeside.steady
    · cases hbeside
      exact .steady (Beside.fields _ _ _ _ ‹_›).steady fun _ => .inl hcoordinated
  | spawns _ hbegins hawaits hu hbeside =>
    refine hspawns (hbeside.steady.trans (steady_spawn _ (fun htrue => ?_) fun htrue => ?_)) hbegins
    · rw [hawaits] at htrue
      cases htrue
    · rcases hu with hu | hadapter
      · rw [hu] at htrue
        cases htrue
      · rw [hbeside.steady.adapter]
        exact .inl hadapter
  | kills ht =>
    subst ht
    exact .plain rfl (steady_kill s false)
  | asks ht _ =>
    subst ht
    exact .plain rfl (steady_requestRemoval s)
  | spawnsRemoval _ hremove hbegins hu => exact hspawns (steady_spawnRemoval hremove hu) hbegins

theorem steady_handle {e : Event} (hremoved : ∀ ok, e ≠ .removed ok) (htransition : e ≠ .transition)
    (hresume : ∀ i outcome, e ≠ .resume i outcome) : Steady s (handle s e) := by
  cases e with
  | connect broker => exact steady_connect s broker
  | connectFailed error => exact steady_settleInitialized s _
  | disconnect => exact steady_spawn_plain rfl rfl
  | ping message => exact steady_ping s message
  | pang requires => exact steady_pang s requires
  | readiness ready => exact steady_handleReadinessMessage s ready
  | readinessTimeout => exact steady_failReadiness s
  | alive => exact .other rfl rfl rfl rfl rfl rfl id rfl
  | sequenceCompleted | sequenceStopped sequenceError => exact steady_unless s s.endEmitted rfl rfl
  | stop => exact steady_stop s
  | kill removeImmediately => exact steady_kill s removeImmediately
  | exited outcome => exact steady_exited s outcome
  | cleaned ok code message => exact steady_cleaned s ok code message
  | removed ok => exact absurd rfl (hremoved ok)
  | transition => exact absurd rfl htransition
  | resume i outcome => exact absurd rfl (hresume i outcome)

/-! ## What holds in every state -/

def Transition.removed : Transition → Bool
  | .removing _ removal => removal.getD false
  | .fulfilled => false
  | _ => true

/-- What has been emitted, by the stored transition and whether `end` has been emitted. -/
def Logged : Option Transition → Bool → List Emission → Prop
  | none, _, log | some (.removing _ _), _, log | some .fulfilled, false, log => log = []
  | some (.finalizing code), _, log | some (.finalized code), _, log => log = [.terminated code]
  | some .rejected, _, log => ∃ code, log = [.terminated code]
  | some .fulfilled, true, log => ∃ code, log = [.terminated code, .end code]

structure Sound (s : CSIController) : Prop where
  asked : s.removalPromise = true ∨ s.removalCompleted = true → s.instanceMain.isSome = true
  launched : ∀ t ∈ s.tasks, t.launched = true → s.instanceMain.isSome = true
  awaits : ∀ t ∈ s.tasks, t.awaitsRemoval = true → s.removing = true
  waits : ∀ code, s.terminalTransition = some (.removing code none) → s.removing = true
  removed : ∀ tr, s.terminalTransition = some tr → tr.removed = true → s.removalCompleted = true
  failed : s.failed = true → s.removalCompleted = false
  reports : ∀ result, s.instancePromise = some result → result.Terminal
  ended : s.endEmitted = true →
    s.terminalTransition = some .fulfilled ∧ s.removalCompleted = true
  log : Logged s.terminalTransition s.endEmitted s.emitted

theorem Sound.frame (h : Sound s) (hframe : Frame s s')
    (hwaits : ∀ code, s'.terminalTransition = some (.removing code none) → s'.removing = true)
    (hremoved : ∀ tr, s'.terminalTransition = some tr → tr.removed = true →
      s'.removalCompleted = true)
    (hfailed : s'.failed = true → s'.removalCompleted = false)
    (hended : s.endEmitted = true → s'.terminalTransition = s.terminalTransition)
    (hlog : Logged s'.terminalTransition s.endEmitted s.emitted) : Sound s' where
  asked hasked := by
    rw [hframe.adapter]
    rcases hasked with hpromise | hcompleted
    · exact (hframe.asked hpromise).elim (fun h' => h.asked (.inl h')) id
    · rw [hframe.completed] at hcompleted
      exact h.asked (.inr hcompleted)
  launched t ht hlaunched := by
    rw [hframe.adapter]
    rcases hframe.launched t ht with ht | ht
    · exact h.launched t ht hlaunched
    · exact (ht hlaunched).elim id h.asked
  awaits t ht hawaits := by
    rcases hframe.awaits t ht with ht | ht
    · exact hframe.removing (h.awaits t ht hawaits)
    · exact ht hawaits
  waits := hwaits
  removed := hremoved
  failed := hfailed
  reports result hresult := (hframe.reports result hresult).elim (h.reports result) id
  ended hend := by
    rw [hframe.ended] at hend
    rw [hended hend, hframe.completed]
    exact h.ended hend
  log := by
    rw [hframe.ended, hframe.emitted]
    exact hlog

theorem Sound.steady (h : Sound s) (hsteady : Steady s s') : Sound s' := by
  apply h.frame hsteady.toFrame
  · intro code hcode
    rw [hsteady.transition] at hcode
    exact hsteady.removing (h.waits code hcode)
  · intro tr htr hremoved
    rw [hsteady.transition] at htr
    rw [hsteady.completed]
    exact h.removed tr htr hremoved
  · intro hfailed
    unfold CSIController.failed at hfailed
    rw [hsteady.transition] at hfailed
    rw [hsteady.completed]
    exact h.failed hfailed
  · exact fun _ => hsteady.transition
  · rw [hsteady.transition]
    exact h.log

theorem failed_eq {tr : Transition} (hstored : s.terminalTransition = some tr)
    (hne : ∀ code, tr ≠ .removing code (some false)) : s.failed = false := by
  unfold CSIController.failed
  rw [hstored]
  split
  · next code heq =>
      cases heq
      exact absurd rfl (hne code)
  · rfl

theorem Sound.begun (h : Sound s) (hbegun : Begun s s') : Sound s' := by
  have hgoes {tr : Transition} (hstored : s'.terminalTransition = some tr)
      (hne : ∀ code, tr ≠ .removing code (some false)) (hfailed : s'.failed = true) :
      s'.removalCompleted = false := by
    rw [failed_eq hstored hne] at hfailed
    cases hfailed
  have hnotEnded (hnone : s.terminalTransition = none) : s.endEmitted = false := by
    rw [← Bool.not_eq_true]
    intro hend
    have hstored := (h.ended hend).1
    rw [hnone] at hstored
    cases hstored
  have hlog (hnone : s.terminalTransition = none) : s.emitted = [] := by
    have hlogged := h.log
    rw [hnone] at hlogged
    exact hlogged
  cases hbegun with
  | stored _ heq => exact heq ▸ h
  | @removing code hnone hframe hstored hremoving =>
    apply h.frame hframe
    · exact fun _ _ => hremoving
    · intro tr htr hremoved
      rw [hstored] at htr
      cases htr
      cases hremoved
    · exact hgoes hstored nofun
    · intro hend
      rw [hnotEnded hnone] at hend
      cases hend
    · rw [hstored]
      exact hlog hnone
  | @removed code hnone hframe hstored hcompleted =>
    apply h.frame hframe
    · intro code' hcode
      rw [hstored] at hcode
      cases hcode
    · exact fun _ _ _ => hcompleted
    · exact hgoes hstored nofun
    · intro hend
      rw [hnotEnded hnone] at hend
      cases hend
    · rw [hstored]
      exact hlog hnone
  | thrown hnone hframe hstored hadapter hcompleted =>
    apply h.frame hframe
    · intro code hcode
      rw [hstored] at hcode
      cases hcode
    · intro tr htr hremoved
      rw [hstored] at htr
      cases htr
      cases hremoved
    · exact hgoes hstored nofun
    · intro hend
      rw [hnotEnded hnone] at hend
      cases hend
    · rw [hstored, hnotEnded hnone]
      exact hlog hnone

theorem Sound.runs (h : Sound s) {t : Task} {outcome : Outcome} (hruns : Runs s t outcome s') :
    Sound s' := by
  cases hruns with
  | steady hsteady _ => exact h.steady hsteady
  | begin hsteady hbegun _ => exact (h.steady hsteady).begun hbegun

theorem Sound.drop (h : Sound s) (i : ℕ) : Sound (s.drop i) where
  asked := h.asked
  launched t ht := h.launched t (List.mem_of_mem_eraseIdx ht)
  awaits t ht := h.awaits t (List.mem_of_mem_eraseIdx ht)
  waits := h.waits
  removed := h.removed
  failed := h.failed
  reports := h.reports
  ended := h.ended
  log := h.log

theorem resume_cases (h : Sound s) (i : ℕ) (outcome : Outcome) :
    s.resume i outcome = s ∨
      ∃ t, s.tasks[i]? = some t ∧ Runs (s.drop i) t outcome (s.resume i outcome) := by
  unfold resume
  cases ht : s.tasks[i]? with
  | none => exact .inl rfl
  | some t =>
    dsimp only
    cases hrun : (s.drop i).run t outcome with
    | none => exact .inl rfl
    | some s' =>
      refine .inr ⟨t, rfl, ?_⟩
      apply runs_of_run _ hrun
      exact h.launched t (List.mem_of_getElem? ht)

theorem Task.awaitsRemoval_settle (ok : Bool) (t : Task) : (t.settle ok).awaitsRemoval = false := by
  unfold Task.settle
  split
  · rfl
  · rfl
  · next hforced hexit =>
      cases t with
      | killForced removal =>
        cases removal with
        | none => exact absurd rfl hforced
        | some done => rfl
      | killExitRemoving removal =>
        cases removal with
        | none => exact absurd rfl hexit
        | some done => rfl
      | _ => rfl

theorem Transition.settle_cases (ok : Bool) (tr : Transition) :
    (∃ code, tr = .removing code none ∧ tr.settle ok = .removing code (some ok)) ∨
      (∀ code, tr ≠ .removing code none) ∧ tr.settle ok = tr := by
  unfold Transition.settle
  split
  · next code => exact .inl ⟨code, rfl, rfl⟩
  · next hne => exact .inr ⟨fun code heq => hne code heq, rfl⟩

theorem removing_iff :
    s.removing = true ↔ s.removalPromise = true ∧ s.removalCompleted = false := by
  unfold CSIController.removing
  rw [Bool.and_eq_true, Bool.not_eq_true']

theorem Sound.settle (h : Sound s) (ok : Bool) : Sound (s.removed ok) := by
  unfold CSIController.removed
  split_ifs with hremoving
  · rw [Bool.and_eq_true] at hremoving
    obtain ⟨hpromise, hcompleted⟩ := removing_iff.mp hremoving.1
    have hadapter := h.asked (.inl hpromise)
    constructor
    · exact fun _ => hadapter
    · exact fun _ _ _ => hadapter
    · intro t ht hawaits
      obtain ⟨t₀, -, rfl⟩ := List.mem_map.mp ht
      rw [Task.awaitsRemoval_settle] at hawaits
      cases hawaits
    · intro code hcode
      obtain ⟨tr, -, htr⟩ := Option.map_eq_some_iff.mp hcode
      rcases tr.settle_cases ok with ⟨code', -, hsettle⟩ | ⟨hne, hsettle⟩
      · rw [hsettle] at htr
        cases htr
      · rw [hsettle] at htr
        exact absurd htr (hne code)
    · intro tr htr hdone
      obtain ⟨tr₀, hstored, rfl⟩ := Option.map_eq_some_iff.mp htr
      rcases tr₀.settle_cases ok with ⟨code', -, hsettle⟩ | ⟨-, hsettle⟩
      · rw [hsettle] at hdone
        exact hdone
      · rw [hsettle] at hdone
        have hold := h.removed tr₀ hstored hdone
        rw [hcompleted] at hold
        cases hold
    · intro hfailed
      show ok = false
      rw [← Bool.not_eq_true]
      rintro rfl
      have hnotFailed : s.failed = false := by rw [← Bool.not_eq_true', hremoving.2]
      unfold CSIController.failed at hfailed hnotFailed
      split at hfailed
      · next code heq =>
          obtain ⟨tr, hstored, htr⟩ := Option.map_eq_some_iff.mp heq
          rw [hstored] at hnotFailed
          rcases tr.settle_cases true with ⟨code', -, hsettle⟩ | ⟨-, hsettle⟩
          · rw [hsettle] at htr
            cases htr
          · rw [hsettle] at htr
            subst htr
            cases hnotFailed
      · cases hfailed
    · exact h.reports
    · intro hend
      have hold := (h.ended hend).2
      rw [hcompleted] at hold
      cases hold
    · have hlog := h.log
      show Logged (s.terminalTransition.map (Transition.settle ok)) s.endEmitted s.emitted
      cases hstored : s.terminalTransition with
      | none =>
        rw [hstored] at hlog
        exact hlog
      | some tr =>
        rw [hstored] at hlog
        rw [Option.map_some]
        rcases tr.settle_cases ok with ⟨code', rfl, hsettle⟩ | ⟨-, hsettle⟩
        all_goals
          rw [hsettle]
          exact hlog
  · exact h

theorem Sound.store (h : Sound s) (stored : Option Transition) (endEmitted : Bool)
    (emitted : List Emission) (hcompleted : stored ≠ none → s.removalCompleted = true)
    (hwaits : ∀ code removal, stored ≠ some (.removing code removal))
    (hended : endEmitted = true → stored = some .fulfilled)
    (hlog : Logged stored endEmitted emitted) :
    Sound { s with
      terminalTransition := stored
      endEmitted := endEmitted
      emitted := emitted } where
  asked := h.asked
  launched := h.launched
  awaits := h.awaits
  waits code hcode := absurd hcode (hwaits code none)
  removed tr htr _ := by
    apply hcompleted
    have hsome : stored = some tr := htr
    rw [hsome]
    exact Option.some_ne_none tr
  failed hfailed := by
    unfold CSIController.failed at hfailed
    split at hfailed
    · next code heq => exact absurd heq (hwaits code _)
    · cases hfailed
  reports := h.reports
  ended hend := by
    have hstored := hended hend
    refine ⟨hstored, hcompleted ?_⟩
    rw [hstored]
    exact Option.some_ne_none _
  log := hlog

/-- The steps of a transition whose removal has settled. -/
inductive Goes (s : CSIController) : CSIController → Prop where
  | kept : (∀ tr, s.terminalTransition = some tr → tr.pending = true →
      ∃ code, tr = .removing code none) → Goes s s
  | cleared {code : Option ℤ} : s.terminalTransition = some (.removing code (some false)) →
      Goes s { s with terminalTransition := none }
  | stored {code : Option ℤ} {tr : Transition} :
      s.terminalTransition = some (.removing code (some true)) →
      (tr = .rejected ∧ s.terminatedListener = false ∨ tr = .finalizing code ∨
        tr = .finalized code) →
      Goes s { s with
        terminalTransition := some tr
        emitted := s.emitted ++ [.terminated code] }
  | finalized {code : Option ℤ} {tr : Transition} :
      s.terminalTransition = some (.finalizing code) →
      (tr = .rejected ∧ s.downStreams = false ∨ tr = .finalized code) →
      Goes s { s with terminalTransition := some tr }
  | ended {code : Option ℤ} : s.terminalTransition = some (.finalized code) →
      s.endEmitted = false →
      Goes s { s with
        terminalTransition := some .fulfilled
        endEmitted := true
        emitted := s.emitted ++ [.end code] }

theorem goes_transition (h : Sound s) : Goes s s.transition := by
  unfold transition
  split
  · next hstored => exact .cleared hstored
  · next code hstored =>
      dsimp only
      have hlistener : (s.emit (.terminated code)).terminatedListener = s.terminatedListener := rfl
      rw [hlistener]
      split_ifs with hreturns
      · unfold finalize
        split_ifs
        · exact .stored hstored (.inr (.inl rfl))
        · exact .stored hstored (.inr (.inr rfl))
      · rw [Bool.not_eq_true] at hreturns
        exact .stored hstored (.inl ⟨rfl, hreturns⟩)
  · next code hstored =>
      split_ifs with hstreams
      · exact .finalized hstored (.inr rfl)
      · rw [Bool.not_eq_true] at hstreams
        exact .finalized hstored (.inl ⟨rfl, hstreams⟩)
  · next code hstored =>
      have hended : s.endEmitted = false := by
        rw [← Bool.not_eq_true]
        intro hend
        have hfulfilled := (h.ended hend).1
        rw [hstored] at hfulfilled
        cases hfulfilled
      unfold emitEnd
      rw [if_neg (by rw [hended]; exact Bool.false_ne_true)]
      exact .ended hstored hended
  · next hcleared hremoved hfinalizing hfinalized =>
      apply Goes.kept
      intro tr htr hpending
      cases tr with
      | removing code removal =>
        cases removal with
        | none => exact ⟨code, rfl⟩
        | some done =>
          cases done with
          | true => exact absurd htr (hremoved code)
          | false => exact absurd htr (hcleared code)
      | finalizing code => exact absurd htr (hfinalizing code)
      | finalized code => exact absurd htr (hfinalized code)
      | fulfilled | rejected => cases hpending

theorem Sound.goes (h : Sound s) (hgoes : Goes s s') : Sound s' := by
  have hnotEnded {tr : Transition} (hstored : s.terminalTransition = some tr)
      (hpending : tr.pending = true) : s.endEmitted = false := by
    rw [← Bool.not_eq_true]
    intro hend
    rw [(h.ended hend).1] at hstored
    cases hstored
    cases hpending
  have hlog {tr : Transition} (hstored : s.terminalTransition = some tr) :
      Logged (some tr) s.endEmitted s.emitted := by
    rw [← hstored]
    exact h.log
  cases hgoes with
  | kept _ => exact h
  | @cleared code hstored =>
    apply h.store none s.endEmitted s.emitted
    · exact fun hne => absurd rfl hne
    · intro code' removal hcode
      cases hcode
    · intro hend
      rw [hnotEnded hstored rfl] at hend
      cases hend
    · exact hlog hstored
  | @stored code tr hstored hnext =>
    have hnil : s.emitted = [] := hlog hstored
    apply h.store (some tr) s.endEmitted (s.emitted ++ [Emission.terminated code])
    · exact fun _ => h.removed _ hstored rfl
    · intro code' removal hcode
      rcases hnext with ⟨rfl, -⟩ | rfl | rfl <;> cases hcode
    · intro hend
      rw [hnotEnded hstored rfl] at hend
      cases hend
    · rw [hnil, List.nil_append]
      rcases hnext with ⟨rfl, -⟩ | rfl | rfl
      · exact ⟨code, rfl⟩
      · rfl
      · rfl
  | @finalized code tr hstored hnext =>
    have hone : s.emitted = [.terminated code] := hlog hstored
    apply h.store (some tr) s.endEmitted s.emitted
    · exact fun _ => h.removed _ hstored rfl
    · intro code' removal hcode
      rcases hnext with ⟨rfl, -⟩ | rfl <;> cases hcode
    · intro hend
      rw [hnotEnded hstored rfl] at hend
      cases hend
    · rcases hnext with ⟨rfl, -⟩ | rfl
      · exact ⟨code, hone⟩
      · exact hone
  | @ended code hstored _ =>
    have hone : s.emitted = [.terminated code] := hlog hstored
    apply h.store (some .fulfilled) true (s.emitted ++ [Emission.end code])
    · exact fun _ => h.removed _ hstored rfl
    · intro code' removal hcode
      cases hcode
    · exact fun _ => rfl
    · exact ⟨code, by rw [hone]; rfl⟩

/-! ## Runs -/

variable (entrypointPath : String) (inputTopic : Option String) (delay : ℕ)
  (thrown : Option String)

theorem sound_start : Sound (start entrypointPath inputTopic delay thrown) where
  asked h := by
    rcases h with h | h <;> cases h
  launched t ht hlaunched := by
    cases List.mem_singleton.mp ht
    cases hlaunched
  awaits t ht hawaits := by
    cases List.mem_singleton.mp ht
    cases hawaits
  waits code hcode := by cases hcode
  removed tr htr _ := by cases htr
  failed hfailed := by cases hfailed
  reports result hresult := by
    cases thrown with
    | none | some message => cases hresult
  ended hend := by cases hend
  log := rfl

inductive Moves (s : CSIController) : Event → CSIController → Prop where
  | steady {e : Event} {s' : CSIController} : Steady s s' → Moves s e s'
  | removed (ok : Bool) : Moves s (.removed ok) (s.removed ok)
  | goes {s' : CSIController} : Goes s s' → Moves s .transition s'
  | runs {i : ℕ} {outcome : Outcome} {t : Task} {s' : CSIController} : s.tasks[i]? = some t →
      Runs (s.drop i) t outcome s' → Moves s (.resume i outcome) s'

theorem moves_next (h : Sound s) (e : Event) : Moves s e (next s e) := by
  unfold next
  split_ifs
  · exact .steady (.refl s)
  · by_cases hremoved : ∃ ok, e = .removed ok
    · obtain ⟨ok, rfl⟩ := hremoved
      exact .removed ok
    by_cases htransition : e = .transition
    · subst htransition
      exact .goes (goes_transition h)
    by_cases hresume : ∃ i outcome, e = .resume i outcome
    · obtain ⟨i, outcome, rfl⟩ := hresume
      show Moves s _ (s.resume i outcome)
      rcases resume_cases h i outcome with hsame | ⟨t, ht, hruns⟩
      · rw [hsame]
        exact .steady (.refl s)
      · exact .runs ht hruns
    · apply Moves.steady
      apply steady_handle
      · exact fun ok heq => hremoved ⟨ok, heq⟩
      · exact htransition
      · exact fun i outcome heq => hresume ⟨i, outcome, heq⟩

theorem sound_next (h : Sound s) (e : Event) : Sound (next s e) := by
  have hmoves := moves_next h e
  generalize next s e = s' at hmoves
  cases hmoves with
  | steady hsteady => exact h.steady hsteady
  | removed ok => exact h.settle ok
  | goes hgoes => exact h.goes hgoes
  | runs _ hruns => exact (h.drop _).runs hruns

end TransformHub.Host.CsiController

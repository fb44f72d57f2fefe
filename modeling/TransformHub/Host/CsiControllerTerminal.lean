import TransformHub.Host.CsiControllerCalls

/-!
# What makes a controller terminal

A controller that is not terminal becomes it when a call goes on that begins the terminal
transition, and then only (`terminal_next`).
-/

namespace TransformHub.Host.CsiController

open CSIController

/-! ## Calls that end a controller -/

/-- `terminal` of `getWatchReadiness`; `info.ended` is set together with the exit information. -/
def CSIController.terminal (s : CSIController) : Bool :=
  s.endEmitted || s.terminated.isSome || s.terminalTransition.isSome

def Event.ends (s : CSIController) : Event → Bool
  | .resume i outcome =>
    match s.tasks[i]? with
    | some t => t.ends (s.drop i) outcome
    | none => false
  | _ => false

def Event.aboutReadiness : Event → Bool
  | .readiness _ | .readinessTimeout => true
  | _ => false

/-! ## Steps that end nothing -/

structure Calm (s s' : CSIController) : Prop where
  readiness : s'.readinessState = s.readinessState
  terminated : s'.terminated = s.terminated
  transition : s'.terminalTransition = s.terminalTransition
  ended : s'.endEmitted = s.endEmitted
  emitted : s'.emitted = s.emitted

variable {s s' s'' : CSIController}

theorem Calm.refl (s : CSIController) : Calm s s := ⟨rfl, rfl, rfl, rfl, rfl⟩

theorem Calm.trans (h : Calm s s') (h' : Calm s' s'') : Calm s s'' where
  readiness := h'.readiness.trans h.readiness
  terminated := h'.terminated.trans h.terminated
  transition := h'.transition.trans h.transition
  ended := h'.ended.trans h.ended
  emitted := h'.emitted.trans h.emitted

theorem Calm.terminal (h : Calm s s') : s'.terminal = s.terminal := by
  unfold CSIController.terminal
  rw [h.ended, h.terminated, h.transition]

theorem calm_spawn (s : CSIController) (t : Task) : Calm s (s.spawn t) :=
  ⟨rfl, rfl, rfl, rfl, rfl⟩

theorem calm_drop (s : CSIController) (i : ℕ) : Calm s (s.drop i) :=
  ⟨rfl, rfl, rfl, rfl, rfl⟩

theorem calm_unless (s : CSIController) (skipped : Bool) (t : Task) :
    Calm s (if skipped then s else s.spawn t) := by
  split
  · exact .refl s
  · exact calm_spawn s t

theorem calm_removeInstance {removal : Option Bool} (h : s.removeInstance = some (removal, s')) :
    Calm s s' := by
  unfold removeInstance at h
  split_ifs at h
  · cases h
    exact .refl s
  · cases h
    exact .refl s
  · cases h
    exact ⟨rfl, rfl, rfl, rfl, rfl⟩

section

variable (s)
include s

theorem calm_requestRemoval : Calm s s.requestRemoval := by
  unfold requestRemoval
  split
  · next hremove => exact calm_removeInstance hremove
  · exact .refl s

theorem calm_awaitTerminalCompletion : Calm s s.awaitTerminalCompletion := by
  unfold awaitTerminalCompletion
  split
  · exact calm_spawn s _
  · exact .refl s

theorem calm_stop : Calm s s.stop := by
  unfold stop
  split
  · exact .refl s
  · have hstatus : Calm s { s with status := .stopping } := ⟨rfl, rfl, rfl, rfl, rfl⟩
    exact (hstatus.trans (calm_awaitTerminalCompletion _)).trans (calm_spawn _ _)

theorem calm_kill (removeImmediately : Bool) : Calm s (s.kill removeImmediately) := by
  have hdelay : Calm s
      (if removeImmediately then { s with instanceLifetimeExtensionDelay := 0 } else s) := by
    split <;> exact ⟨rfl, rfl, rfl, rfl, rfl⟩
  unfold kill
  generalize (if removeImmediately then { s with instanceLifetimeExtensionDelay := 0 } else s) = s₁
    at hdelay
  apply hdelay.trans
  dsimp only
  split_ifs
  · exact calm_requestRemoval s₁
  · exact .refl s₁
  · exact calm_requestRemoval s₁
  · have hstatus : Calm s₁ { s₁ with status := .killing } := ⟨rfl, rfl, rfl, rfl, rfl⟩
    exact (hstatus.trans (calm_awaitTerminalCompletion _)).trans (calm_spawn _ _)

theorem calm_settleInitialized (outcome : Except ExitResult Unit) :
    Calm s (s.settleInitialized outcome) :=
  ⟨rfl, rfl, rfl, rfl, rfl⟩

theorem calm_exited (outcome : Except (Option ℤ) ℤ) : Calm s (s.exited outcome) := by
  unfold exited
  split
  · split
    · dsimp only
      split_ifs <;> exact ⟨rfl, rfl, rfl, rfl, rfl⟩
    · exact ⟨rfl, rfl, rfl, rfl, rfl⟩
  · exact .refl s

theorem calm_settleInstance (outcome : Except ExitResult ExitResult) :
    Calm s (s.settleInstance outcome) := by
  cases outcome with
  | ok result | error error => exact ⟨rfl, rfl, rfl, rfl, rfl⟩

theorem calm_cleaned (ok : Bool) (code : Option ℤ) (message : Option String) :
    Calm s (s.cleaned ok code message) := by
  unfold cleaned
  split
  · split_ifs <;> exact ⟨rfl, rfl, rfl, rfl, rfl⟩
  · split_ifs
    · exact calm_settleInstance s _
    · exact ⟨rfl, rfl, rfl, rfl, rfl⟩
  · split_ifs <;> exact calm_settleInstance s _
  · exact .refl s

theorem calm_connect (broker : Bool) : Calm s (s.connect broker) := by
  unfold connect
  dsimp only
  split_ifs <;> exact ⟨rfl, rfl, rfl, rfl, rfl⟩

theorem calm_ping (message : PingMessage) : Calm s (s.ping message) := by
  unfold ping
  dsimp only
  split <;> exact ⟨rfl, rfl, rfl, rfl, rfl⟩

theorem calm_pang (requires : Option String) : Calm s (s.pang requires) := by
  unfold pang
  dsimp only
  split_ifs <;> exact ⟨rfl, rfl, rfl, rfl, rfl⟩

end

/-! ## Calls that go on -/

/-- The terminal transition has begun, or had before. -/
structure Ended (s s' : CSIController) : Prop where
  readiness : s'.readinessState = s.readinessState
  terminal : s'.terminal = true
  emitted : s'.emitted = s.emitted

/-- What a call does, by whether it ends the controller. -/
inductive After (s s' : CSIController) : Bool → Prop where
  | calm : Calm s s' → After s s' false
  | ended : Ended s s' → After s s' true

theorem Ended.of_calm (h : Ended s' s'') (hcalm : Calm s s') : Ended s s'' where
  readiness := h.readiness.trans hcalm.readiness
  terminal := h.terminal
  emitted := h.emitted.trans hcalm.emitted

theorem After.of_calm {ends : Bool} (h : After s' s'' ends) (hcalm : Calm s s') :
    After s s'' ends := by
  cases h with
  | calm h => exact .calm (hcalm.trans h)
  | ended h => exact .ended (h.of_calm hcalm)

theorem ended_transitionToTerminal (s : CSIController) (code : Option ℤ)
    (status : Option InstanceStatus) (reason : Option String) :
    Ended s (s.transitionToTerminal code status reason) := by
  unfold transitionToTerminal
  split_ifs with hstored
  · refine ⟨rfl, ?_, rfl⟩
    unfold CSIController.terminal
    rw [hstored, Bool.or_true]
  · dsimp only
    split
    · next hremove =>
        have hcalm := calm_removeInstance hremove
        refine ⟨hcalm.readiness, ?_, hcalm.emitted⟩
        simp [CSIController.terminal]
    · refine ⟨rfl, ?_, rfl⟩
      simp [CSIController.terminal]

theorem after_main (s : CSIController) : After s s.main s.instanceMain.isNone := by
  have hstatus : Calm s { s with status := .running } := ⟨rfl, rfl, rfl, rfl, rfl⟩
  unfold main
  dsimp only
  split
  next hadapter =>
    rw [Option.isNone_eq_false_iff.mpr hadapter]
    exact .calm (hstatus.trans (calm_spawn _ _))
  next hadapter =>
    have herrored : Calm s { s with status := .errored } := ⟨rfl, rfl, rfl, rfl, rfl⟩
    rw [Option.isNone_iff_eq_none.mpr (Option.not_isSome_iff_eq_none.mp hadapter)]
    exact .ended ((ended_transitionToTerminal _ _ _ _).of_calm herrored)

theorem Beside.calm (h : Beside s s') : Calm s s' := by
  cases h
  exact ⟨rfl, rfl, rfl, rfl, rfl⟩

theorem after_run {t : Task} {outcome : Outcome} (h : s.run t outcome = some s') :
    After s s' (t.ends s outcome) := by
  cases resumes_run h with
  | begins code reason hends _ _ =>
    rw [hends]
    exact .ended (ended_transitionToTerminal s _ _ _)
  | main ht hinitialized =>
    subst ht
    unfold Task.ends
    rw [hinitialized]
    exact after_main s
  | passes hends _ hbeside =>
    rw [hends]
    exact .calm hbeside.calm
  | spawns hends _ _ _ hbeside =>
    rw [hends]
    exact .calm (hbeside.calm.trans (calm_spawn _ _))
  | kills ht =>
    subst ht
    exact .calm (calm_kill s false)
  | asks ht houtcome =>
    subst ht
    cases outcome with
    | fulfilled => exact absurd rfl houtcome
    | rejected | rejectedThenCompleted => exact .calm (calm_requestRemoval s)
  | spawnsRemoval hends hremove _ _ =>
    rw [hends]
    exact .calm ((calm_removeInstance hremove).trans (calm_spawn _ _))

theorem ends_of_waiting {t : Task} {outcome : Outcome} (h : s.run t outcome = none) :
    t.ends s outcome = false := by
  have hpromise {f : ExitResult → CSIController} (hmap : s.instancePromise.map f = none) :
      s.instancePromise.isSome = false := by
    rw [Option.map_eq_none_iff.mp hmap]
    rfl
  have hasks : s.run .killExit .rejected ≠ none := by
    dsimp only [run]
    split <;> rintro ⟨⟩
  cases t with
  | initialized =>
    unfold Task.ends
    rw [Option.map_eq_none_iff.mp h]
  | main | terminalCompletion => exact hpromise h
  | killForced removal =>
    cases Option.map_eq_none_iff.mp h
    rfl
  | killExit =>
    cases outcome with
    | fulfilled => exact hpromise h
    | rejected | rejectedThenCompleted => exact absurd h hasks
  | killExitRemoving removal =>
    cases Option.map_eq_none_iff.mp h
    rfl
  | completedExit =>
    cases outcome with
    | fulfilled => exact hpromise h
    | rejected | rejectedThenCompleted => rfl
  | stoppedResult sequenceError => exact hpromise h
  | stoppedKillExit =>
    cases outcome with
    | fulfilled => rfl
    | rejected | rejectedThenCompleted => cases h
  | storage | handshake | stopControl | stopDelay | killControl | stoppedExit | stoppedEnded
  | stoppedKill | readiness | disconnecting => rfl

theorem after_resume (s : CSIController) (i : ℕ) (outcome : Outcome) :
    After s (s.resume i outcome) (Event.ends s (.resume i outcome)) := by
  unfold resume Event.ends
  dsimp only
  cases s.tasks[i]? with
  | none => exact .calm (.refl s)
  | some t =>
    dsimp only
    cases hrun : (s.drop i).run t outcome with
    | some s' => exact (after_run hrun).of_calm (calm_drop s i)
    | none =>
      rw [ends_of_waiting hrun]
      exact .calm (.refl s)

/-! ## Steps -/

theorem transition_of_none (h : s.terminalTransition = none) : s.transition = s := by
  unfold transition
  rw [h]

theorem calm_removed (h : s.terminalTransition = none) (ok : Bool) : Calm s (s.removed ok) := by
  unfold removed
  split
  · refine ⟨rfl, rfl, ?_, rfl, rfl⟩
    show s.terminalTransition.map _ = _
    rw [h]
    rfl
  · exact .refl s

section

variable (h : s.terminal = false) {e : Event} (he : e.aboutReadiness = false)
include h he

theorem after_next : After s (next s e) (e.ends s) := by
  have hnone : s.terminalTransition = none := by
    unfold CSIController.terminal at h
    simp only [Bool.or_eq_false_iff, Option.isSome_eq_false_iff, Option.isNone_iff_eq_none] at h
    exact h.2
  unfold next
  split
  next hunhooked =>
    cases e with
    | resume i outcome => cases hunhooked
    | connect | connectFailed | disconnect | ping | pang | readiness | readinessTimeout | alive
    | sequenceCompleted | sequenceStopped | stop | kill | exited | cleaned | removed
    | transition => exact .calm (.refl s)
  · cases e with
    | connect broker => exact .calm (calm_connect s broker)
    | connectFailed error => exact .calm (calm_settleInitialized s _)
    | disconnect => exact .calm (calm_spawn s _)
    | ping message => exact .calm (calm_ping s message)
    | pang requires => exact .calm (calm_pang s requires)
    | readiness ready | readinessTimeout => cases he
    | alive => exact .calm ⟨rfl, rfl, rfl, rfl, rfl⟩
    | sequenceCompleted => exact .calm (calm_unless s s.endEmitted _)
    | sequenceStopped sequenceError => exact .calm (calm_unless s s.endEmitted _)
    | stop => exact .calm (calm_stop s)
    | kill removeImmediately => exact .calm (calm_kill s removeImmediately)
    | exited outcome => exact .calm (calm_exited s outcome)
    | cleaned ok code message => exact .calm (calm_cleaned s ok code message)
    | removed ok => exact .calm (calm_removed hnone ok)
    | transition =>
      rw [handle, transition_of_none hnone]
      exact .calm (.refl s)
    | resume i outcome => exact after_resume s i outcome

theorem terminal_next : (next s e).terminal = e.ends s := by
  have hafter := after_next h he
  generalize e.ends s = ends at hafter ⊢
  cases hafter with
  | calm hcalm => rw [hcalm.terminal, h]
  | ended hended => exact hended.terminal

theorem emitted_next : (next s e).emitted = s.emitted := by
  have hafter := after_next h he
  generalize e.ends s = ends at hafter
  cases hafter with
  | calm hcalm => exact hcalm.emitted
  | ended hended => exact hended.emitted

end

theorem next_readiness (hhooked : s.hooked = true) (herrored : s.readinessState ≠ .errored)
    (hended : s.endEmitted = false) (ready : Bool) :
    next s (.readiness ready) =
      if ready then { s with readinessState := .ready } else s.failReadiness := by
  have hregistered : ¬ ((Event.readiness ready).fromRunner && !s.hooked) = true := by
    simp [Event.fromRunner, hhooked]
  have hheeded : ¬ (decide (s.readinessState = .errored) || s.endEmitted) = true := by
    simp [herrored, hended]
  exact (if_neg hregistered).trans (if_neg hheeded)

theorem next_unhooked (hhooked : s.hooked = false) (ready : Bool) :
    next s (.readiness ready) = s := by
  unfold next
  rw [hhooked]
  rfl

theorem failReadiness_keeps (s : CSIController) :
    s.failReadiness.terminal = s.terminal ∧ s.failReadiness.emitted = s.emitted ∧
      s.failReadiness.readinessState = .errored := by
  have hkill := calm_kill { s with readinessState := .errored } true
  exact ⟨hkill.terminal, hkill.emitted, hkill.readiness⟩

end TransformHub.Host.CsiController

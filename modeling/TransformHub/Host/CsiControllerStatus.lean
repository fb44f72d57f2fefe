import TransformHub.Host.CsiControllerRun

/-!
# The status of a controller

`terminated` and `end` follow the removal, each once and in this order, in every run.
-/

namespace TransformHub.Host.CsiController

open CSIController

/-! ## What is emitted -/

structure Protocol (s : CSIController) : Prop where
  order : ∃ code, s.emitted <+: [.terminated code, .end code]
  removal : ∀ code, .end code ∈ s.emitted → s.removalCompleted = true

variable {s : CSIController}

theorem Protocol.of_nil (h : s.emitted = []) : Protocol s where
  order := ⟨none, by rw [h]; exact List.nil_prefix⟩
  removal code hcode := by
    rw [h] at hcode
    cases hcode

theorem Protocol.of_terminated {code : Option ℤ} (h : s.emitted = [.terminated code])
    (hremoved : s.removalCompleted = true) : Protocol s where
  order := ⟨code, [.end code], by rw [h]; rfl⟩
  removal _ _ := hremoved

theorem Sound.followsProtocol (h : Sound s) : Protocol s := by
  have hlog := h.log
  have hended := h.ended
  cases hstored : s.terminalTransition with
  | none =>
    rw [hstored] at hlog
    exact .of_nil hlog
  | some tr =>
    rw [hstored] at hlog
    cases tr with
    | removing code removal => exact .of_nil hlog
    | finalizing code | finalized code => exact .of_terminated hlog (h.removed _ hstored rfl)
    | rejected =>
      obtain ⟨code, hone⟩ := hlog
      exact .of_terminated hone (h.removed _ hstored rfl)
    | fulfilled =>
      cases hend : s.endEmitted with
      | false =>
        rw [hend] at hlog
        exact .of_nil hlog
      | true =>
        rw [hend] at hlog
        obtain ⟨code, hboth⟩ := hlog
        exact ⟨⟨code, [], (List.append_nil _).trans hboth⟩, fun _ _ => (hended hend).2⟩

/-! ## What a step does to a terminal status -/

def StaysTerminal (s : CSIController) (e : Event) : Prop :=
  s.status.terminal = true → (next s e).status.terminal = true

/-- The steps that write a status that is not terminal whatever the status is. -/
def Revives (s : CSIController) : Event → Prop
  | .ping message => s.hooked = true ∧ (message.status.getD .running).terminal = false
  | .stop => s.coordinated = false
  | .resume i _ =>
    s.tasks[i]? = some .initialized ∧ s.initialized = some (.ok ()) ∧
      s.instanceMain.isSome = true
  | _ => False

def Unrevived (s : CSIController) (e : Event) : Prop := s.status.terminal = true → ¬ Revives s e

/-- The status is as before, or terminal. -/
def Kept (s s' : CSIController) : Prop := s'.status = s.status ∨ s'.status.terminal = true

variable {s' s'' : CSIController}

theorem Kept.stays (h : Kept s s') (hterminal : s.status.terminal = true) :
    s'.status.terminal = true := by
  rcases h with h | h
  · rw [h]
    exact hterminal
  · exact h

theorem status_requestRemoval (s : CSIController) : s.requestRemoval.status = s.status := by
  unfold requestRemoval removeInstance
  split_ifs <;> rfl

theorem status_removed (s : CSIController) (ok : Bool) : (s.removed ok).status = s.status := by
  unfold CSIController.removed
  split_ifs <;> rfl

theorem status_transition (s : CSIController) : s.transition.status = s.status := by
  unfold transition
  split
  · rfl
  · dsimp only
    split_ifs <;> rfl
  · rfl
  · unfold emitEnd
    split_ifs <;> rfl
  · rfl

theorem kept_transitionToTerminal (s : CSIController) (code : Option ℤ)
    {status : Option InstanceStatus} (reason : Option String)
    (hstatus : ∀ st, status = some st → st = s.status ∨ st.terminal = true) :
    Kept s (s.transitionToTerminal code status reason) := by
  unfold transitionToTerminal
  have hgetD : status.getD s.status = s.status ∨ (status.getD s.status).terminal = true := by
    cases status with
    | none => exact .inl rfl
    | some st => exact hstatus st rfl
  split_ifs
  · exact .inl rfl
  · unfold removeInstance
    dsimp only
    split_ifs <;> exact hgetD

theorem status_unless (s : CSIController) (skipped : Bool) (t : Task) :
    (if skipped then s else s.spawn t).status = s.status := by
  split_ifs <;> rfl

theorem stays_kill (removeImmediately : Bool) (hterminal : s.status.terminal = true) :
    (s.kill removeImmediately).status = s.status := by
  unfold kill
  cases removeImmediately with
  | true =>
    dsimp only
    rw [if_pos rfl, if_pos hterminal, if_pos rfl]
    exact status_requestRemoval _
  | false =>
    dsimp only
    rw [if_neg Bool.false_ne_true, if_pos hterminal, if_neg Bool.false_ne_true]

theorem kept_exited (s : CSIController) (outcome : Except (Option ℤ) ℤ) :
    Kept s (s.exited outcome) := by
  unfold exited
  split
  · cases outcome with
    | ok exitcode =>
      dsimp only
      split_ifs
      · exact .inr rfl
      · exact .inl rfl
    | error code => exact .inr rfl
  · exact .inl rfl

theorem status_settleInstance (s : CSIController) (outcome : Except ExitResult ExitResult) :
    (s.settleInstance outcome).status = s.status := by
  cases outcome with
  | ok result | error error => rfl

theorem kept_cleaned (s : CSIController) (ok : Bool) (code : Option ℤ) (message : Option String) :
    Kept s (s.cleaned ok code message) := by
  unfold cleaned
  split
  · split_ifs
    · exact .inl rfl
    · exact .inr rfl
  · split_ifs
    · exact .inl (status_settleInstance s _)
    · exact .inr rfl
  · split_ifs <;> exact .inl (status_settleInstance s _)
  · exact .inl rfl

theorem Beside.kept (h : Beside s s') : Kept s s' := by
  cases h with
  | fields _ _ _ _ hstatus =>
    rcases hstatus with rfl | rfl
    · exact .inl rfl
    · exact .inr rfl

theorem EndStatus.kept {status : Option InstanceStatus} (h : EndStatus s status)
    (hsound : Sound s) (st : InstanceStatus) (hst : status = some st) :
    st = s.status ∨ st.terminal = true := by
  cases h with
  | errored =>
    cases hst
    exact .inr rfl
  | reported hresult => exact .inr (hsound.reports _ hresult st hst)
  | @current result hresult =>
    cases hst
    cases hstatus : result.status with
    | none => exact .inl rfl
    | some st => exact .inr (hsound.reports _ hresult st hstatus)

theorem stays_run {t : Task} {outcome : Outcome} (hsound : Sound s)
    (hmain : t = .initialized → s.initialized = some (.ok ()) → s.instanceMain.isSome = false)
    (h : s.run t outcome = some s') (hterminal : s.status.terminal = true) :
    s'.status.terminal = true := by
  have hsame {s₁ : CSIController} (hstatus : s₁.status = s.status) :
      s₁.status.terminal = true := by
    rw [hstatus]
    exact hterminal
  cases resumes_run h with
  | begins code reason _ _ hstatus =>
    exact (kept_transitionToTerminal s code reason (hstatus.kept hsound)).stays hterminal
  | main ht hinitialized =>
    unfold main
    rw [if_neg (by rw [hmain ht hinitialized]; exact Bool.false_ne_true)]
    have hkept : Kept { s with status := .errored }
        ({ s with status := .errored }.transitionToTerminal none (some .errored) none) := by
      apply kept_transitionToTerminal
      intro st heq
      cases heq
      exact .inr rfl
    exact hkept.stays rfl
  | passes _ _ hbeside | spawns _ _ _ _ hbeside => exact hbeside.kept.stays hterminal
  | kills _ => exact hsame (stays_kill false hterminal)
  | asks _ _ => exact hsame (status_requestRemoval s)
  | spawnsRemoval _ hremove _ _ =>
    apply hsame
    unfold removeInstance at hremove
    split_ifs at hremove <;> cases hremove <;> rfl

theorem stays_resume (h : Sound s) {i : ℕ} {outcome : Outcome}
    (hmain : s.tasks[i]? = some .initialized → s.initialized = some (.ok ()) →
      s.instanceMain.isSome = false) (hterminal : s.status.terminal = true) :
    (s.resume i outcome).status.terminal = true := by
  unfold resume
  cases ht : s.tasks[i]? with
  | none => exact hterminal
  | some t =>
    dsimp only
    cases hrun : (s.drop i).run t outcome with
    | none => exact hterminal
    | some s' =>
      refine stays_run (h.drop i) ?_ hrun hterminal
      rintro rfl
      exact hmain ht

theorem revived_resume {i : ℕ} {outcome : Outcome} (ht : s.tasks[i]? = some .initialized)
    (hinitialized : s.initialized = some (.ok ())) (hadapter : s.instanceMain.isSome = true) :
    (s.resume i outcome).status = .running := by
  unfold resume
  rw [ht]
  have hdrop : (s.drop i).initialized = some (.ok ()) := hinitialized
  have hmain : (s.drop i).run .initialized outcome = some (s.drop i).main := by
    show (s.drop i).initialized.map _ = _
    rw [hdrop]
    rfl
  dsimp only
  rw [hmain]
  unfold main
  rw [if_pos (show (s.drop i).instanceMain.isSome = true from hadapter)]
  rfl

theorem stays_handle (h : Sound s) {e : Event} (hterminal : s.status.terminal = true)
    (hrevives : ¬ Revives s e) (hhooked : e.fromRunner = true → s.hooked = true) :
    (handle s e).status.terminal = true := by
  have hsame {s' : CSIController} (hstatus : s'.status = s.status) :
      s'.status.terminal = true := by
    rw [hstatus]
    exact hterminal
  cases e with
  | connect broker => cases broker <;> exact hterminal
  | connectFailed error | disconnect => exact hterminal
  | ping message =>
    have hstatus : (message.status.getD .running).terminal = true := by
      rw [← Bool.not_eq_false]
      exact fun hnot => hrevives ⟨hhooked rfl, hnot⟩
    show (s.ping message).status.terminal = true
    unfold ping
    cases message.payload with
    | none | some inputTopic => exact hstatus
  | pang requires =>
    show (s.pang requires).status.terminal = true
    unfold pang
    dsimp only
    split_ifs <;> exact hterminal
  | readiness ready =>
    show (s.handleReadinessMessage ready).status.terminal = true
    unfold handleReadinessMessage
    split_ifs
    · exact hterminal
    · exact hterminal
    · exact hsame (stays_kill (s := { s with readinessState := .errored }) true hterminal)
  | readinessTimeout =>
    exact hsame (stays_kill (s := { s with readinessState := .errored }) true hterminal)
  | alive => exact hterminal
  | sequenceCompleted => exact hsame (status_unless s s.endEmitted _)
  | sequenceStopped sequenceError => exact hsame (status_unless s s.endEmitted _)
  | stop =>
    have hcoordinated : s.coordinated = true := by
      rw [← Bool.not_eq_false]
      exact hrevives
    show s.stop.status.terminal = true
    unfold CSIController.stop
    rw [if_pos (show (s.terminalTransition.isSome || s.endEmitted) = true from hcoordinated)]
    exact hterminal
  | kill removeImmediately => exact hsame (stays_kill removeImmediately hterminal)
  | exited outcome => exact (kept_exited s outcome).stays hterminal
  | cleaned ok code message => exact (kept_cleaned s ok code message).stays hterminal
  | removed ok => exact hsame (status_removed s ok)
  | transition => exact hsame (status_transition s)
  | resume i outcome =>
    apply stays_resume h _ hterminal
    intro ht hinitialized
    rw [← Bool.not_eq_true]
    exact fun hadapter => hrevives ⟨ht, hinitialized, hadapter⟩

theorem revived_next {e : Event} (hrevives : Revives s e) : (next s e).status.terminal = false := by
  cases e with
  | ping message =>
    unfold next
    rw [if_neg (by rw [hrevives.1]; exact Bool.false_ne_true)]
    show (s.ping message).status.terminal = false
    unfold ping
    cases message.payload with
    | none | some inputTopic => exact hrevives.2
  | stop =>
    show s.stop.status.terminal = false
    have hcoordinated : s.coordinated = false := hrevives
    unfold CSIController.stop
    rw [if_neg (show ¬ (s.terminalTransition.isSome || s.endEmitted) = true by
      rw [Bool.not_eq_true]; exact hcoordinated)]
    unfold awaitTerminalCompletion
    split_ifs <;> rfl
  | resume i outcome =>
    show (s.resume i outcome).status.terminal = false
    rw [revived_resume hrevives.1 hrevives.2.1 hrevives.2.2]
    rfl
  | _ => exact hrevives.elim

theorem staysTerminal_iff (h : Sound s) (e : Event) : StaysTerminal s e ↔ Unrevived s e := by
  constructor
  · intro hstays hterminal hrevives
    have hterminal' := hstays hterminal
    rw [revived_next hrevives] at hterminal'
    cases hterminal'
  · intro hunrevived hterminal
    unfold next
    split_ifs with hunhooked
    · exact hterminal
    · apply stays_handle h hterminal (hunrevived hterminal)
      intro hrunner
      rw [hrunner, Bool.true_and, Bool.not_eq_true', Bool.not_eq_false] at hunhooked
      exact hunhooked

/-! ## Runs -/

variable (entrypointPath : String) (inputTopic : Option String) (delay : ℕ)
  (thrown : Option String)

/-- The terminal protocol holds of a run exactly if no step of it revives a terminal status. -/
theorem protocol_iff_unrevived (es : List Event) :
    System.Always next Protocol (start entrypointPath inputTopic delay thrown) es ∧
        System.Meets next StaysTerminal (start entrypointPath inputTopic delay thrown) es ↔
      System.Meets next Unrevived (start entrypointPath inputTopic delay thrown) es := by
  have hsound := sound_start entrypointPath inputTopic delay thrown
  have hsteps :
      System.Meets next System.anyStep (start entrypointPath inputTopic delay thrown) es :=
    System.meets_anyStep _ es
  have hprotocol :
      System.Always next Protocol (start entrypointPath inputTopic delay thrown) es := by
    apply System.always_of_meets (I := Sound) _ hsound hsound.followsProtocol es hsteps
    intro s e hs _ _
    exact ⟨sound_next hs e, (sound_next hs e).followsProtocol⟩
  rw [and_iff_right hprotocol]
  exact System.meets_congr (I := Sound) (fun s e hs => staysTerminal_iff hs e)
    (fun s e hs _ => sound_next hs e) hsound es

/-- A `PING` that comes after the runner has crashed. -/
theorem latePing_running :
    ¬ ∀ (entrypointPath : String) (inputTopic : Option String) (delay : ℕ)
        (thrown : Option String) (es : List Event),
      System.Always next Protocol (start entrypointPath inputTopic delay thrown) es ∧
        System.Meets next StaysTerminal (start entrypointPath inputTopic delay thrown) es := by
  intro h
  have hmeets := (h "main.js" none 0 none
    [.connect true, .exited (.ok 1), .ping ⟨none, "main.js", some none⟩]).2
  have hping := hmeets.2.2.1 rfl
  cases hping

end TransformHub.Host.CsiController

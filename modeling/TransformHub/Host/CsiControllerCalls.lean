import TransformHub.Host.CsiController
import Mathlib.Tactic.SplitIfs

/-!
# How a waiting call goes on

`resumes_run` says once what a step of a waiting call can do: begin the terminal transition, make
another call wait, ask for the removal, or change fields that the transition does not read.
-/

namespace TransformHub.Host.CsiController

open CSIController

/-! ## Kinds of calls -/

/-- A call that waits for a removal by the adapter. -/
def Task.awaitsRemoval : Task → Bool
  | .killForced none | .killExitRemoving none => true
  | _ => false

/-- A call that there is only with an adapter. -/
def Task.launched : Task → Bool
  | .killForced _ | .killExit | .killExitRemoving _ => true
  | _ => false

/-- A call that begins the terminal transition when it goes on. -/
def Task.begins (s : CSIController) : Task → Bool
  | .initialized => s.initialized.isSome
  | .main | .terminalCompletion | .killExit | .killExitRemoving _ | .stoppedEnded _
  | .stoppedResult _ => true
  | .killForced removal => removal.getD true
  | _ => false

/-- The step of a call that needs no adapter and begins the terminal transition. -/
def Task.bare : Task → Outcome → Bool
  | .initialized, _ => true
  | .stoppedKillExit, outcome => outcome != .fulfilled
  | _, _ => false

/-- A call begins the terminal transition when what it waits for settles so. -/
def Task.ends (s : CSIController) : Task → Outcome → Bool
  | .initialized, _ =>
    match s.initialized with
    | some (.ok _) => s.instanceMain.isNone
    | some (.error _) => !s.endEmitted
    | none => false
  | .killExit, .fulfilled | .completedExit, .fulfilled => s.instancePromise.isSome
  | .main, _ | .terminalCompletion, _ | .stoppedResult _, _ => s.instancePromise.isSome
  | .killForced removal, _ => removal.getD false
  | .killExit, _ => s.removeInstance.isNone
  | .killExitRemoving removal, _ => removal.isSome
  | .stoppedKillExit, .rejected | .stoppedKillExit, .rejectedThenCompleted => true
  | _, _ => false

/-! ## What a step of a call does -/

/-- Only fields change that the terminal transition does not read, and the status to an error. -/
inductive Beside (s : CSIController) : CSIController → Prop where
  | fields {status : InstanceStatus} (inputTopic : Option String) (entrypointPath : String)
      (keepAliveRequested downStreams : Bool) :
      status = s.status ∨ status = .errored →
      Beside s { s with
        status := status
        inputTopic := inputTopic
        entrypointPath := entrypointPath
        keepAliveRequested := keepAliveRequested
        downStreams := downStreams }

theorem Beside.refl (s : CSIController) : Beside s s := .fields _ _ _ _ (.inl rfl)

/-- The status that the transition begins with: an error, or that of the result. -/
inductive EndStatus (s : CSIController) : Option InstanceStatus → Prop where
  | errored : EndStatus s (some .errored)
  | reported {result : ExitResult} : s.instancePromise = some result → EndStatus s result.status
  | current {result : ExitResult} : s.instancePromise = some result →
      EndStatus s (some (result.status.getD s.status))

inductive Resumes (s : CSIController) (t : Task) (outcome : Outcome) : CSIController → Prop where
  /-- with an adapter, or without a need for one -/
  | begins {status : Option InstanceStatus} (code : Option ℤ) (reason : Option String) :
      t.ends s outcome = true →
      t.bare outcome = true ∨ t.launched = true ∨ s.instancePromise.isSome = true →
      EndStatus s status → Resumes s t outcome (s.transitionToTerminal code status reason)
  | main : t = .initialized → s.initialized = some (.ok ()) → Resumes s t outcome s.main
  | passes {s' : CSIController} : t.ends s outcome = false →
      t.begins s = false ∨ s.coordinated = true → Beside s s' → Resumes s t outcome s'
  | spawns {s' : CSIController} {u : Task} : t.ends s outcome = false →
      t.begins s = false ∨ (∀ s, u.begins s = true) → u.awaitsRemoval = false →
      u.launched = false ∨ s.instanceMain.isSome = true → Beside s s' →
      Resumes s t outcome (s'.spawn u)
  | kills : t = .stopDelay → Resumes s t outcome (s.kill false)
  | asks : t = .completedExit → outcome ≠ .fulfilled → Resumes s t outcome s.requestRemoval
  | spawnsRemoval {s' : CSIController} {removal : Option Bool} {u : Task} :
      t.ends s outcome = false → s.removeInstance = some (removal, s') →
      t.begins s = false ∨ (∀ s, u.begins s = true) →
      u = .killForced removal ∨ u = .killExitRemoving removal → Resumes s t outcome (s'.spawn u)

variable {s s' : CSIController} {t : Task} {outcome : Outcome}

theorem Resumes.same (hends : t.ends s outcome = false) (hbegins : t.begins s = false)
    (h : some s = some s') : Resumes s t outcome s' := by
  cases h
  exact .passes hends (.inl hbegins) (.refl s)

theorem Resumes.unless {skipped : Bool} {u : Task} (hends : t.ends s outcome = false)
    (hbegins : t.begins s = false ∨ (skipped = s.coordinated ∧ ∀ s, u.begins s = true))
    (hawaits : u.awaitsRemoval = false) (hlaunched : u.launched = false) (hbeside : Beside s s') :
    Resumes s t outcome (if skipped then s' else s'.spawn u) := by
  cases skipped with
  | true => exact .passes hends (hbegins.imp_right fun h => h.1.symm) hbeside
  | false => exact .spawns hends (hbegins.imp_right And.right) hawaits (.inl hlaunched) hbeside

theorem Resumes.of_result {code : ExitResult → Option ℤ} {status : ExitResult → Option InstanceStatus}
    {reason : ExitResult → Option String} (hends : t.ends s outcome = s.instancePromise.isSome)
    (hstatus : ∀ result, s.instancePromise = some result → EndStatus s (status result))
    (h : s.instancePromise.map (fun result =>
      s.transitionToTerminal (code result) (status result) (reason result)) = some s') :
    Resumes s t outcome s' := by
  obtain ⟨result, hresult, rfl⟩ := Option.map_eq_some_iff.mp h
  have hsome : s.instancePromise.isSome = true := by rw [hresult]; rfl
  exact .begins _ _ (hends.trans hsome) (.inr (.inr hsome)) (hstatus result hresult)

theorem Resumes.of_killControl {removeImmediately bounded : Bool}
    (h : (if removeImmediately then
      match s.removeInstance with
      | some (removal, s) => some (s.spawn (.killForced removal))
      | none => some s
      else some s) = some s') : Resumes s (.killControl removeImmediately bounded) outcome s' := by
  have hends : (Task.killControl removeImmediately bounded).ends s outcome = false := by
    cases outcome <;> rfl
  split_ifs at h
  · cases hremove : s.removeInstance with
    | none =>
      rw [hremove] at h
      exact .same hends rfl h
    | some removed =>
      rw [hremove] at h
      cases h
      exact .spawnsRemoval hends hremove (.inl rfl) (.inl rfl)
  · exact .same hends rfl h

theorem Resumes.of_killExit (houtcome : outcome ≠ .fulfilled)
    (h : (match s.removeInstance with
      | some (removal, s) => some (s.spawn (.killExitRemoving removal))
      | none => some (s.transitionToTerminal (some 137) (some .errored) (some notTerminated))) =
        some s') : Resumes s .killExit outcome s' := by
  have hends : Task.killExit.ends s outcome = s.removeInstance.isNone := by
    cases outcome with
    | fulfilled => exact absurd rfl houtcome
    | rejected | rejectedThenCompleted => rfl
  cases hremove : s.removeInstance with
  | none =>
    rw [hremove] at h hends
    cases h
    exact .begins _ _ hends (.inr (.inl rfl)) .errored
  | some removed =>
    rw [hremove] at h hends
    cases h
    exact .spawnsRemoval hends hremove (.inr fun _ => rfl) (.inr rfl)

theorem resumes_run (h : s.run t outcome = some s') : Resumes s t outcome s' := by
  cases t with
  | storage =>
    cases outcome with
    | fulfilled =>
      cases h
      exact .spawns rfl (.inl rfl) rfl (.inl rfl) (.refl s)
    | rejected | rejectedThenCompleted => exact .same rfl rfl h
  | initialized =>
    obtain ⟨settled, hsettled, rfl⟩ := Option.map_eq_some_iff.mp h
    cases settled with
    | ok _ => exact .main rfl hsettled
    | error e =>
      dsimp only
      split_ifs with hended
      · refine .passes ?_ (.inr ?_) (.refl s)
        · simp [Task.ends, hsettled, hended]
        · simp [coordinated, hended]
      · exact .begins _ _ (by simp [Task.ends, hsettled, hended]) (.inl rfl) .errored
  | main => exact .of_result rfl (fun _ => .current) h
  | handshake inputTopic entrypointPath =>
    cases outcome with
    | fulfilled =>
      cases h
      exact .passes rfl (.inl rfl) (.fields _ _ _ _ (.inl rfl))
    | rejected | rejectedThenCompleted => exact .same rfl rfl h
  | terminalCompletion => exact .of_result rfl (fun _ => .reported) h
  | stopControl =>
    cases outcome with
    | fulfilled =>
      cases h
      exact .unless rfl (.inl rfl) rfl rfl (.fields _ _ _ _ (.inl rfl))
    | rejected | rejectedThenCompleted => exact .same rfl rfl h
  | stopDelay =>
    cases h
    split_ifs
    · exact .same rfl rfl rfl
    · exact .kills rfl
  | killControl removeImmediately bounded =>
    cases outcome with
    | fulfilled =>
      have hrun : some (if s.instanceMain.isSome then s.spawn .killExit else s) = some s' := h
      split_ifs at hrun with hadapter
      · cases hrun
        exact .spawns rfl (.inl rfl) rfl (.inr hadapter) (.refl s)
      · exact .same rfl rfl hrun
    | rejected =>
      cases bounded with
      | false | true => exact .of_killControl h
    | rejectedThenCompleted =>
      cases bounded with
      | false => exact .of_killControl h
      | true => exact .same rfl rfl h
  | killForced removal =>
    have hrun : removal.map (fun ok =>
        if ok then s.transitionToTerminal (some 137) (some .errored) (some controlFailed)
        else s) = some s' := h
    obtain ⟨ok, rfl, rfl⟩ := Option.map_eq_some_iff.mp hrun
    cases ok with
    | true => exact .begins _ _ rfl (.inr (.inl rfl)) .errored
    | false => exact .same rfl rfl rfl
  | killExit =>
    cases outcome with
    | fulfilled => exact .of_result rfl (fun _ => .current) h
    | rejected | rejectedThenCompleted => exact .of_killExit (by simp) h
  | killExitRemoving removal =>
    have hrun : removal.map (fun _ =>
        s.transitionToTerminal (some 137) (some .errored) (some notTerminated)) = some s' := h
    obtain ⟨ok, rfl, rfl⟩ := Option.map_eq_some_iff.mp hrun
    exact .begins _ _ rfl (.inr (.inl rfl)) .errored
  | completedExit =>
    cases outcome with
    | fulfilled => exact .of_result rfl (fun _ => .reported) h
    | rejected | rejectedThenCompleted =>
      cases h
      exact .asks rfl (by simp)
  | stoppedExit sequenceError =>
    have hunless {u : Task} {outcome : Outcome} (hawaits : u.awaitsRemoval = false)
        (hlaunched : u.launched = false) :
        Resumes s (.stoppedExit sequenceError) outcome (if s.coordinated then s else s.spawn u) :=
      .unless rfl (.inl rfl) hawaits hlaunched (.refl s)
    cases outcome with
    | fulfilled =>
      have hrun : s.endOfSequence.join.map (fun _ =>
        if s.coordinated then s else s.spawn (.stoppedEnded sequenceError)) = some s' := h
      obtain ⟨exitcode, -, rfl⟩ := Option.map_eq_some_iff.mp hrun
      exact hunless rfl rfl
    | rejected | rejectedThenCompleted =>
      cases h
      exact hunless rfl rfl
  | stoppedEnded sequenceError =>
    cases h
    exact .unless rfl (.inr ⟨rfl, fun _ => rfl⟩) rfl rfl (.refl s)
  | stoppedResult sequenceError => exact .of_result rfl (fun _ => .reported) h
  | stoppedKill =>
    cases outcome with
    | fulfilled =>
      cases h
      exact .spawns rfl (.inl rfl) rfl (.inl rfl) (.refl s)
    | rejected | rejectedThenCompleted => exact .same rfl rfl h
  | stoppedKillExit =>
    cases outcome with
    | fulfilled =>
      have hrun : s.endOfSequence.join.map (fun _ => s) = some s' := h
      obtain ⟨exitcode, -, rfl⟩ := Option.map_eq_some_iff.mp hrun
      exact .same rfl rfl rfl
    | rejected | rejectedThenCompleted =>
      cases h
      exact .begins _ _ rfl (.inl rfl) .errored
  | readiness =>
    cases outcome with
    | fulfilled =>
      cases h
      exact .passes rfl (.inl rfl) (.fields _ _ _ _ (.inr rfl))
    | rejected | rejectedThenCompleted => exact .same rfl rfl h
  | disconnecting =>
    cases outcome with
    | fulfilled =>
      cases h
      exact .passes rfl (.inl rfl) (.fields _ _ _ _ (.inl rfl))
    | rejected | rejectedThenCompleted => exact .same rfl rfl h

end TransformHub.Host.CsiController

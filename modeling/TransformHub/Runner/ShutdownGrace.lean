import TransformHub.Lib.Transition
import TransformHub.Runner.ShutdownControlRun

/-!
# The end of the grace period

`disconnectAfterRunnerShutdownGrace` of `shutdown-grace.ts` with everything it calls: the observer,
the timer, `onOutcome` and `disconnect`, each of which may fail.
-/

namespace TransformHub.Runner.ShutdownGrace

open ShutdownControl (ShutdownCancellationReason GraceReason GraceStatus GraceResult)

/-- The methods of an observer with states `σ`; `none` is what has thrown. -/
structure Observer (σ : Type) where
  reason : σ → Option ShutdownCancellationReason
  takeOverAfterChildClose : σ → Option Bool × σ
  finishGraceWindow : σ → Option (Option ShutdownCancellationReason) × σ
  dispose : σ → Option Unit × σ

inductive Disconnect where
  | throws
  | rejects
  | resolves

structure Input (σ : Type) where
  durationMs : ℕ
  eligible : Bool
  /-- the observer, if there is one -/
  control : Option σ
  observer : Observer σ
  delayThrows : Bool
  /-- `onOutcome` throws -/
  reportThrows : Bool
  disconnect : Disconnect

inductive Call where
  | dispose (threw : Bool)
  | report (result : GraceResult) (threw : Bool)
  | disconnect (outcome : Disconnect)

inductive Phase where
  /-- the timer is running -/
  | delaying
  /-- `waiting` has a result, or has been rejected -/
  | joining (result : Option GraceResult)
  | finished (outcome : Disconnect)

structure State (σ : Type) where
  control : Option σ
  calls : List Call
  phase : Phase

def skipped (reason : GraceReason) : GraceResult := ⟨.skipped, reason⟩

def invalid : GraceResult := skipped (.cancellation .observationInvalid)

def cancelled (reason : ShutdownCancellationReason) : GraceResult :=
  ⟨.cancelled, .cancellation reason⟩

variable {σ : Type} (input : Input σ)

/-- `dispose`, `report` and `disconnect`. -/
def finish (control : Option σ) (result : GraceResult) : State σ :=
  match control with
  | none =>
    ⟨none, [.report result input.reportThrows, .disconnect input.disconnect],
      .finished input.disconnect⟩
  | some c =>
    let (disposed, c) := input.observer.dispose c
    ⟨some c, [.dispose disposed.isNone, .report result input.reportThrows,
      .disconnect input.disconnect], .finished input.disconnect⟩

/-- What `waitForRunnerShutdownGrace` returns: a promise that is settled, or one that waits for the
timer. -/
inductive Wait where
  | threw
  | resolved (result : GraceResult)
  | delayed

def waitForRunnerShutdownGrace (eligible : Bool) (control : σ) (controlAlreadyTakenOver : Bool) :
    Wait × σ :=
  if input.durationMs = 0 then (.resolved (skipped .disabled), control)
  else if eligible = false then (.resolved (skipped .ineligible), control)
  else
    match input.observer.reason control with
    | some reason => (.resolved (cancelled reason), control)
    | none =>
      let takeover :=
        if controlAlreadyTakenOver then (some true, control)
        else input.observer.takeOverAfterChildClose control
      match takeover with
      | (none, control) => (.threw, control)
      | (some false, control) =>
        (.resolved (skipped (.cancellation
          ((input.observer.reason control).getD .observationInvalid))), control)
      | (some true, control) =>
        match input.observer.reason control with
        | some reason => (.resolved (cancelled reason), control)
        | none => if input.delayThrows then (.resolved invalid, control) else (.delayed, control)

/-- The reason is reported as it is, but an invalid observation is skipped. -/
def ofReason : ShutdownCancellationReason → GraceResult
  | .observationInvalid => invalid
  | reason => cancelled reason

/-- What `disconnectAfterRunnerShutdownGrace` does when it is called. -/
def disconnectAfterRunnerShutdownGrace : State σ :=
  if input.durationMs = 0 then finish input input.control (skipped .disabled)
  else
    match input.control.bind input.observer.reason with
    | some reason => finish input input.control (ofReason reason)
    | none =>
      if input.eligible = false then finish input input.control (skipped .ineligible)
      else
        match input.control with
        | none => finish input none invalid
        | some control =>
          match input.observer.takeOverAfterChildClose control with
          | (none, control) => finish input (some control) invalid
          | (some false, control) =>
            finish input (some control) (skipped (.cancellation
              ((input.observer.reason control).getD .observationInvalid)))
          | (some true, control) =>
            match input.observer.reason control with
            | some reason => finish input (some control) (ofReason reason)
            | none =>
              match waitForRunnerShutdownGrace input true control true with
              | (.threw, control) => finish input (some control) invalid
              | (.resolved result, control) => ⟨some control, [], .joining (some result)⟩
              | (.delayed, control) => ⟨some control, [], .delaying⟩

inductive Event (σ : Type) where
  /-- something happens to the observer -/
  | observe (change : σ → σ)
  /-- the timer resolves, or rejects -/
  | timer (resolves : Bool)
  /-- the turn in which the result of `waiting` is taken up -/
  | join

/-- What `waiting` becomes when the timer ends. -/
def afterTimer (control : σ) : Bool → Option GraceResult × σ
  | true =>
    match input.observer.finishGraceWindow control with
    | (none, control) => (none, control)
    | (some (some reason), control) => (some (ofReason reason), control)
    | (some none, control) => (some ⟨.elapsed, .elapsed⟩, control)
  | false =>
    match input.observer.reason control with
    | some reason => (some (cancelled reason), control)
    | none => (some invalid, control)

def step (s : State σ) : Event σ → State σ
  | .observe change => { s with control := s.control.map change }
  | .timer resolves =>
    match s.phase, s.control with
    | .delaying, some control =>
      let (result, control) := afterTimer input control resolves
      { s with control := some control, phase := .joining result }
    | _, _ => s
  | .join =>
    match s.phase with
    | .joining result => finish input s.control (result.getD invalid)
    | _ => s

/-- The function has been called, and then the events have happened. -/
def run (events : List (Event σ)) : State σ :=
  events.foldl (step input) (disconnectAfterRunnerShutdownGrace input)

/-! ## The epilogue -/

/-- What is called at the end: the observer, if there is one, is disposed of, then the result is
reported, then `disconnect` is called. -/
def Epilogue (calls : List Call) : Prop :=
  ∃ disposal result, calls = disposal ++ [.report result input.reportThrows,
      .disconnect input.disconnect] ∧
    match input.control with
    | none => disposal = []
    | some _ => ∃ threw, disposal = [.dispose threw]

/-- Nothing has been called, or the epilogue. -/
structure Sound (s : State σ) : Prop where
  control : s.control.isSome = input.control.isSome
  running : (∀ outcome, s.phase ≠ .finished outcome) → s.calls = [] ∧ s.control.isSome = true
  finished : ∀ outcome, s.phase = .finished outcome →
    outcome = input.disconnect ∧ Epilogue input s.calls

variable {input} {s : State σ} {control : Option σ} {c : σ} {result : GraceResult}

theorem Sound.finish (h : control.isSome = input.control.isSome) (result : GraceResult) :
    Sound input (finish input control result) := by
  cases control with
  | none =>
    have hnone : input.control = none := by simpa using h.symm
    refine ⟨h, fun hphase => absurd rfl (hphase input.disconnect), ?_⟩
    rintro outcome ⟨⟩
    refine ⟨rfl, [], result, rfl, ?_⟩
    rw [hnone]
  | some c =>
    obtain ⟨c', hsome⟩ : ∃ c', input.control = some c' := Option.isSome_iff_exists.mp h.symm
    refine ⟨h, fun hphase => absurd rfl (hphase input.disconnect), ?_⟩
    rintro outcome ⟨⟩
    refine ⟨rfl, [.dispose (input.observer.dispose c).1.isNone], result, rfl, ?_⟩
    rw [hsome]
    exact ⟨_, rfl⟩

theorem Sound.of_running {phase : Phase} (h : input.control.isSome = true)
    (hphase : ∀ outcome, phase ≠ .finished outcome) : Sound input ⟨some c, [], phase⟩ :=
  ⟨h.symm, fun _ => ⟨rfl, rfl⟩, fun outcome houtcome => absurd houtcome (hphase outcome)⟩

theorem sound_disconnectAfterRunnerShutdownGrace :
    Sound input (disconnectAfterRunnerShutdownGrace input) := by
  unfold disconnectAfterRunnerShutdownGrace
  split
  · exact .finish rfl _
  · split
    · exact .finish rfl _
    · split
      · exact .finish rfl _
      · split
        · next hnone => exact .finish (by rw [hnone]) _
        · next c hsome =>
            have hcontrol : input.control.isSome = true := by rw [hsome]; rfl
            have hfinish : ∀ c result, Sound input (ShutdownGrace.finish input (some c) result) :=
              fun c result => .finish (by rw [hcontrol]; rfl) result
            split
            · exact hfinish _ _
            · exact hfinish _ _
            · split
              · exact hfinish _ _
              · split
                · exact hfinish _ _
                · exact .of_running hcontrol nofun
                · exact .of_running hcontrol nofun

theorem Sound.congr (S : Sound input s) {s' : State σ}
    (hcontrol : s'.control.isSome = s.control.isSome) (hcalls : s'.calls = s.calls)
    (hphase : ∀ outcome, s'.phase = .finished outcome ↔ s.phase = .finished outcome) :
    Sound input s' := by
  refine ⟨hcontrol.trans S.control, fun h => ?_, fun outcome h => ?_⟩
  · rw [hcalls, hcontrol]
    exact S.running fun outcome houtcome => h outcome ((hphase outcome).mpr houtcome)
  · rw [hcalls]
    exact S.finished outcome ((hphase outcome).mp h)

theorem Sound.step (S : Sound input s) (event : Event σ) : Sound input (step input s event) := by
  cases event with
  | observe change => exact S.congr Option.isSome_map rfl fun _ => Iff.rfl
  | timer resolves =>
    show Sound input (match s.phase, s.control with
      | .delaying, some control => _
      | _, _ => s)
    split
    · next control hphase hcontrol =>
        refine S.congr (by rw [hcontrol]; rfl) rfl fun outcome => ?_
        rw [hphase]
        constructor <;> intro h <;> cases h
    · exact S
  | join =>
    show Sound input (match s.phase with
      | .joining result => _
      | _ => s)
    split
    · exact .finish S.control _
    · exact S

theorem Sound.foldl (S : Sound input s) (events : List (Event σ)) :
    Sound input (events.foldl (ShutdownGrace.step input) s) := by
  induction events generalizing s with
  | nil => exact S
  | cons event events ih => exact ih (S.step event)

theorem sound_run (input : Input σ) (events : List (Event σ)) : Sound input (run input events) :=
  sound_disconnectAfterRunnerShutdownGrace.foldl events

theorem Sound.settles (S : Sound input s) (resolves : Bool) :
    (ShutdownGrace.step input (ShutdownGrace.step input s (.timer resolves)) .join).phase =
      .finished input.disconnect := by
  obtain ⟨control, calls, phase⟩ := s
  cases phase with
  | delaying =>
    obtain ⟨c, rfl⟩ := Option.isSome_iff_exists.mp (S.running nofun).2
    rfl
  | joining result => cases control <;> rfl
  | finished outcome =>
    obtain ⟨rfl, -⟩ := S.finished outcome rfl
    rfl

/-- Until the end nothing is called, at the end the epilogue is, and once the timer has ended the
next turn is the end. -/
theorem disconnects_once (input : Input σ) (events : List (Event σ)) :
    ((run input events).calls = [] ∨ Epilogue input (run input events).calls) ∧
      ∀ resolves, Epilogue input (run input (events ++ [.timer resolves, .join])).calls := by
  have S := sound_run input events
  constructor
  · by_cases hphase : ∃ outcome, (run input events).phase = .finished outcome
    · obtain ⟨outcome, houtcome⟩ := hphase
      exact .inr (S.finished outcome houtcome).2
    · exact .inl (S.running fun outcome h => hphase ⟨outcome, h⟩).1
  · intro resolves
    have hphase := S.settles resolves
    have S' := (S.step (.timer resolves)).step .join
    rw [run, List.foldl_append]
    exact (S'.finished _ hphase).2

end TransformHub.Runner.ShutdownGrace

import TransformHub.Host.CsiControllerRun

/-!
# The end of a controller

A controller whose instance has been removed is to emit `end`, and one whose removal has failed is
to keep no transition, so that the next signal begins it again.
-/

namespace TransformHub.Host.CsiController

open CSIController

/-! ## Finishing the transition -/

/-- Nothing of the controller's own will let the call go on. -/
def Task.idle (s : CSIController) : Task → Bool
  | .initialized => s.initialized.isNone
  | .killForced none | .killExitRemoving none => !s.removing
  | _ => false

/-- Neither a removal nor the transition goes on. -/
structure Resting (s : CSIController) : Prop where
  removal : s.removing = false
  transition : ∀ tr, s.terminalTransition = some tr → tr.pending = true →
    ∃ code, tr = .removing code none

/-- No asynchronous step is pending; `start` may wait for the first message of the runner. -/
structure Settled (s : CSIController) : Prop extends Resting s where
  tasks : ∀ t ∈ s.tasks, t.idle s = true

/-- The terminal transition can be finished. -/
structure Finishable (s : CSIController) : Prop where
  ended : Settled s → s.removalCompleted = true → s.endEmitted = true
  /-- also where the runner has neither exited nor been killed -/
  absent : Resting s → s.removalCompleted = false → s.terminalTransition = none
  /-- the next signal begins it again -/
  again : Resting s → s.removalCompleted = false → s.instanceMain.isSome = true →
    ∀ code status reason,
      (s.transitionToTerminal code status reason).terminalTransition = some (.removing code none)
  finished : ∀ tr, s.terminalTransition = some tr → tr.pending = false → s.endEmitted = true

/-- A removal succeeds only for a transition that goes on or is going to begin, the streams are
there for the listener of `terminated` and for `finalize`, and no transition begins without an
adapter. -/
def Careful (s : CSIController) : Event → Prop
  | .removed ok => ok = true → s.removing = true → Owed s
  | .transition =>
    (∀ code, s.terminalTransition = some (.removing code (some true)) →
      s.terminatedListener = true) ∧
    ∀ code, s.terminalTransition = some (.finalizing code) → s.downStreams = true
  | .resume i outcome =>
    ∀ t, s.tasks[i]? = some t → t.bare outcome = true →
      s.coordinated = true ∨ s.instanceMain.isSome = true
  | _ => True

variable {s s' : CSIController}

/-- What a run whose steps are careful adds to `Sound`. -/
structure Finishing (s : CSIController) : Prop where
  sound : Sound s
  accepted : s.terminalTransition ≠ some .rejected
  fulfilled : s.terminalTransition = some .fulfilled → s.endEmitted = true

/-- After the removal the transition has been finished, or it will be. -/
def Accounted (s : CSIController) : Prop :=
  s.removalCompleted = true → s.endEmitted = true ∨ Owed s

theorem Finishing.stored (h : Finishing s) {tr : Transition}
    (hstored : s.terminalTransition = some tr) : s.endEmitted = true ∨ Owed s := by
  cases tr with
  | fulfilled => exact .inl (h.fulfilled hstored)
  | rejected => exact absurd hstored h.accepted
  | removing code removal | finalizing code | finalized code => exact .inr (.inl ⟨_, hstored, rfl⟩)

theorem Finishing.coordinated (h : Finishing s) (hcoordinated : s.coordinated = true) :
    s.endEmitted = true ∨ Owed s := by
  unfold CSIController.coordinated at hcoordinated
  rw [Bool.or_eq_true] at hcoordinated
  rcases hcoordinated with hstored | hended
  · obtain ⟨tr, hstored⟩ := Option.isSome_iff_exists.mp hstored
    exact h.stored hstored
  · exact .inl hended

theorem Finishing.steady (h : Finishing s) (hsteady : Steady s s') : Finishing s' where
  sound := h.sound.steady hsteady
  accepted := by
    rw [hsteady.transition]
    exact h.accepted
  fulfilled hstored := by
    rw [hsteady.transition] at hstored
    rw [hsteady.ended]
    exact h.fulfilled hstored

theorem Frame.begins (hframe : Frame s s') {t : Task} (h : t.begins s = true) :
    t.begins s' = true := by
  cases t with
  | initialized =>
    have hsome : s.initialized.isSome = true := h
    show s'.initialized.isSome = true
    rw [Option.isSome_iff_ne_none] at hsome ⊢
    exact hframe.initialized hsome
  | _ => exact h

theorem Accounted.steady (h : Accounted s) (hsteady : Steady s s') : Accounted s' := by
  intro hcompleted
  rw [hsteady.completed] at hcompleted
  rw [hsteady.ended]
  refine (h hcompleted).imp_right ?_
  rintro (⟨tr, hstored, hpending⟩ | ⟨t, ht, hbegins⟩)
  · rw [← hsteady.transition] at hstored
    exact .inl ⟨tr, hstored, hpending⟩
  · exact .inr ⟨t, hsteady.kept t ht, hsteady.begins hbegins⟩

/-! ## One step -/

theorem Finishing.begun (h : Finishing s) (hbegun : Begun s s')
    (hadapter : s.coordinated = true ∨ s.instanceMain.isSome = true) :
    Finishing s' ∧ (s'.endEmitted = true ∨ Owed s') := by
  have hsound := h.sound.begun hbegun
  have hpending {tr : Transition} (hstored : s'.terminalTransition = some tr)
      (htr : tr.pending = true) : Finishing s' ∧ (s'.endEmitted = true ∨ Owed s') := by
    refine ⟨⟨hsound, ?_, ?_⟩, .inr (.inl ⟨tr, hstored, htr⟩)⟩
    all_goals
      rw [hstored]
      rintro heq
      cases heq
      cases htr
  cases hbegun with
  | stored hstored heq =>
    subst heq
    obtain ⟨tr, hstored⟩ := Option.ne_none_iff_exists'.mp hstored
    exact ⟨h, h.stored hstored⟩
  | removing _ _ hstored _ | removed _ _ hstored _ => exact hpending hstored rfl
  | thrown hnone hframe hstored hmissing hcompleted =>
    rcases hadapter with hcoordinated | hadapter
    · unfold CSIController.coordinated at hcoordinated
      rw [hnone, Option.isSome_none, Bool.false_or] at hcoordinated
      rw [(h.sound.ended hcoordinated).1] at hnone
      cases hnone
    · rw [hmissing] at hadapter
      cases hadapter

theorem Finishing.runs (h : Finishing s) (haccounted : Accounted s) {i : ℕ} {t : Task}
    {outcome : Outcome} (ht : s.tasks[i]? = some t) (hruns : Runs (s.drop i) t outcome s')
    (hadapter : t.bare outcome = true → s.coordinated = true ∨ s.instanceMain.isSome = true) :
    Finishing s' ∧ Accounted s' := by
  have hdrop : Finishing (s.drop i) := ⟨h.sound.drop i, h.accepted, h.fulfilled⟩
  cases hruns with
  | steady hsteady hbegins =>
    have hfinishing := hdrop.steady hsteady
    refine ⟨hfinishing, ?_⟩
    intro hcompleted
    rw [hsteady.completed] at hcompleted
    rcases haccounted hcompleted with hended | ⟨tr, hstored, hpending⟩ | ⟨t', ht', hbegins'⟩
    · rw [hsteady.ended]
      exact .inl hended
    · have hstored' : s'.terminalTransition = some tr := hsteady.transition.trans hstored
      exact .inr (.inl ⟨tr, hstored', hpending⟩)
    · rcases List.mem_iff_getElem?.mp ht' with ⟨j, hj⟩
      by_cases hij : j = i
      · -- the call that goes on is the one that was going to begin the transition
        subst hij
        rw [ht] at hj
        cases hj
        rcases hbegins hbegins' with hcoordinated | hnext
        · exact hfinishing.coordinated hcoordinated
        · exact .inr (.inr hnext)
      · have hkept : t' ∈ (s.drop i).tasks :=
          List.mem_eraseIdx_iff_getElem?.mpr ⟨j, hij, hj⟩
        exact .inr (.inr ⟨t', hsteady.kept t' hkept, hsteady.begins hbegins'⟩)
  | @begin s₁ hsteady hbegun hlaunched =>
    have hcondition : s₁.coordinated = true ∨ s₁.instanceMain.isSome = true := by
      have hold : s.coordinated = true ∨ s.instanceMain.isSome = true := by
        rcases hlaunched with hbare | hlaunched
        · exact hadapter hbare
        · exact .inr hlaunched
      unfold CSIController.coordinated at hold ⊢
      rw [hsteady.transition, hsteady.ended, hsteady.adapter]
      exact hold
    obtain ⟨hfinishing, howed⟩ := (hdrop.steady hsteady).begun hbegun hcondition
    exact ⟨hfinishing, fun _ => howed⟩

theorem Finishing.goes (h : Finishing s) (haccounted : Accounted s) (hgoes : Goes s s')
    (hcareful : Careful s .transition) : Finishing s' ∧ Accounted s' := by
  have hsound := h.sound.goes hgoes
  cases hgoes with
  | kept _ => exact ⟨h, haccounted⟩
  | @cleared code hstored =>
    refine ⟨⟨hsound, fun heq => (by cases heq), nofun⟩, ?_⟩
    intro hcompleted
    have hfailed : s.failed = true := by
      unfold CSIController.failed
      rw [hstored]
    have hnot := h.sound.failed hfailed
    rw [show s.removalCompleted = true from hcompleted] at hnot
    cases hnot
  | @stored code tr hstored hnext =>
    have hlistener := hcareful.1 code hstored
    rcases hnext with ⟨-, hthrown⟩ | rfl | rfl
    · rw [hlistener] at hthrown
      cases hthrown
    · exact ⟨⟨hsound, nofun, nofun⟩,
        fun _ => .inr (.inl ⟨_, rfl, rfl⟩)⟩
    · exact ⟨⟨hsound, nofun, nofun⟩,
        fun _ => .inr (.inl ⟨_, rfl, rfl⟩)⟩
  | @finalized code tr hstored hnext =>
    have hstreams := hcareful.2 code hstored
    rcases hnext with ⟨-, hthrown⟩ | rfl
    · rw [hstreams] at hthrown
      cases hthrown
    · exact ⟨⟨hsound, nofun, nofun⟩,
        fun _ => .inr (.inl ⟨_, rfl, rfl⟩)⟩
  | ended hstored _ => exact ⟨⟨hsound, nofun, fun _ => rfl⟩, fun _ => .inl rfl⟩

theorem Transition.pending_settle (ok : Bool) (tr : Transition) :
    (tr.settle ok).pending = tr.pending := by
  rcases tr.settle_cases ok with ⟨code, rfl, hsettle⟩ | ⟨-, hsettle⟩
  · rw [hsettle]
    rfl
  · rw [hsettle]

theorem Task.begins_settle {t : Task} (h : t.begins s = true)
    (hinitialized : s'.initialized = s.initialized) : (t.settle true).begins s' = true := by
  cases t with
  | initialized =>
    show s'.initialized.isSome = true
    rw [hinitialized]
    exact h
  | killForced removal =>
    cases removal with
    | none => rfl
    | some done => exact h
  | killExitRemoving removal =>
    cases removal with
    | none | some done => rfl
  | _ => exact h

theorem Finishing.settle (h : Finishing s) (haccounted : Accounted s) (ok : Bool)
    (hcareful : Careful s (.removed ok)) :
    Finishing (s.removed ok) ∧ Accounted (s.removed ok) := by
  have hsound := h.sound.settle ok
  unfold CSIController.removed at hsound ⊢
  split_ifs at hsound ⊢ with hremoving
  · rw [Bool.and_eq_true] at hremoving
    have hsettled {tr : Transition} (htr : tr.pending = false)
        (hstored : s.terminalTransition.map (Transition.settle ok) = some tr) :
        s.terminalTransition = some tr := by
      obtain ⟨tr₀, hstored₀, rfl⟩ := Option.map_eq_some_iff.mp hstored
      rw [hstored₀]
      rcases tr₀.settle_cases ok with ⟨code, -, hsettle⟩ | ⟨-, hsettle⟩
      · rw [hsettle] at htr
        cases htr
      · rw [hsettle]
    refine ⟨⟨hsound, fun hstored => h.accepted (hsettled rfl hstored),
      fun hstored => h.fulfilled (hsettled rfl hstored)⟩, ?_⟩
    intro hcompleted
    have hok : ok = true := hcompleted
    subst hok
    apply Or.inr
    rcases hcareful rfl hremoving.1 with ⟨tr, hstored, hpending⟩ | ⟨t, ht, hbegins⟩
    · apply Or.inl
      refine ⟨tr.settle true, ?_, ?_⟩
      · show s.terminalTransition.map (Transition.settle true) = _
        rw [hstored]
        rfl
      · rw [Transition.pending_settle]
        exact hpending
    · exact .inr ⟨t.settle true, List.mem_map_of_mem ht, Task.begins_settle hbegins rfl⟩
  · exact ⟨h, haccounted⟩

theorem Finishing.next (h : Finishing s) (haccounted : Accounted s) {e : Event}
    (hcareful : Careful s e) : Finishing (next s e) ∧ Accounted (next s e) := by
  have hmoves := moves_next h.sound e
  generalize CsiController.next s e = s' at hmoves
  cases hmoves with
  | steady hsteady => exact ⟨h.steady hsteady, haccounted.steady hsteady⟩
  | removed ok => exact h.settle haccounted ok hcareful
  | goes hgoes => exact h.goes haccounted hgoes hcareful
  | runs ht hruns => exact h.runs haccounted ht hruns (hcareful _ ht)

/-! ## Runs -/

theorem Finishing.finished (h : Finishing s) {tr : Transition}
    (hstored : s.terminalTransition = some tr) (hpending : tr.pending = false) :
    s.endEmitted = true := by
  cases tr with
  | fulfilled => exact h.fulfilled hstored
  | rejected => exact absurd hstored h.accepted
  | removing code removal | finalizing code | finalized code => cases hpending

theorem Finishing.absent (h : Finishing s) (hresting : Resting s)
    (hcompleted : s.removalCompleted = false) : s.terminalTransition = none := by
  rw [Option.eq_none_iff_forall_ne_some]
  intro tr hstored
  cases hpending : tr.pending with
  | true =>
    obtain ⟨code, rfl⟩ := hresting.transition tr hstored hpending
    have hremoving := h.sound.waits code hstored
    rw [hresting.removal] at hremoving
    cases hremoving
  | false =>
    have hended := (h.sound.ended (h.finished hstored hpending)).2
    rw [hcompleted] at hended
    cases hended

theorem Finishing.finishable (h : Finishing s) (haccounted : Accounted s) : Finishable s where
  ended hsettled hcompleted := by
    rcases haccounted hcompleted with hended | ⟨tr, hstored, hpending⟩ | ⟨t, ht, hbegins⟩
    · exact hended
    · obtain ⟨code, rfl⟩ := hsettled.transition tr hstored hpending
      have hremoving := h.sound.waits code hstored
      rw [hsettled.removal] at hremoving
      cases hremoving
    · have hidle := hsettled.tasks t ht
      have hawaits := h.sound.awaits t ht
      rw [hsettled.removal] at hawaits
      cases t with
      | initialized =>
        have hnone : s.initialized.isNone = true := hidle
        rw [Option.isNone_iff_eq_none] at hnone
        have hsome : s.initialized.isSome = true := hbegins
        rw [hnone] at hsome
        cases hsome
      | killForced removal | killExitRemoving removal =>
        cases removal with
        | none => cases hawaits rfl
        | some done => cases hidle
      | _ => cases hidle
  absent := h.absent
  again hresting hcompleted hadapter code status reason := by
    have hnone := h.absent hresting hcompleted
    have hpromise : s.removalPromise = false := by
      have hremoval := hresting.removal
      unfold CSIController.removing at hremoval
      rw [hcompleted, Bool.not_false, Bool.and_true] at hremoval
      exact hremoval
    obtain ⟨main, hmain⟩ := Option.isSome_iff_exists.mp hadapter
    simp [transitionToTerminal, removeInstance, setExitInfo, hnone, hcompleted, hpromise, hmain]
  finished _ := h.finished

variable (entrypointPath : String) (inputTopic : Option String) (delay : ℕ)
  (thrown : Option String)

theorem finishing_start : Finishing (start entrypointPath inputTopic delay thrown) where
  sound := sound_start entrypointPath inputTopic delay thrown
  accepted hstored := by cases hstored
  fulfilled hstored := by cases hstored

theorem accounted_start : Accounted (start entrypointPath inputTopic delay thrown) := by
  exact nofun

/-- In a run whose steps are careful the terminal transition can always be finished. -/
theorem finishable_of_careful (es : List Event)
    (h : System.Meets next Careful (start entrypointPath inputTopic delay thrown) es) :
    System.Always next Finishable (start entrypointPath inputTopic delay thrown) es := by
  have hfinishing := finishing_start entrypointPath inputTopic delay thrown
  have haccounted := accounted_start entrypointPath inputTopic delay thrown
  apply System.always_of_meets (I := fun s => Finishing s ∧ Accounted s) _ ⟨hfinishing, haccounted⟩
    (hfinishing.finishable haccounted) es h
  intro s e hI _ hcareful
  have hnext := hI.1.next hI.2 hcareful
  exact ⟨hnext, hnext.1.finishable hnext.2⟩

/-- A removal fails after the exit of the runner, and is done again for `stop`. -/
def stopAfterFailure : List Event :=
  [.resume 0 .fulfilled, .connect true, .pang none, .resume 0 .fulfilled, .exited (.ok 0),
    .cleaned true none none, .resume 0 .fulfilled, .removed false, .transition, .stop,
    .resume 0 .fulfilled, .removed true, .transition, .transition]

theorem stopAfterFailure_finishable :
    System.Always next Finishable (start "main.js" none 0 none) stopAfterFailure := by
  apply finishable_of_careful
  have hresume {s : CSIController} {i : ℕ} {outcome : Outcome}
      (hadapter : s.instanceMain.isSome = true) : Careful s (.resume i outcome) :=
    fun _ _ _ => .inr hadapter
  have hfails {s : CSIController} : Careful s (.removed false) := nofun
  exact ⟨hresume rfl, trivial, trivial, hresume rfl, trivial, trivial, hresume rfl, hfails,
    ⟨fun _ _ => rfl, nofun⟩, trivial, hresume rfl,
    fun _ _ => .inl ⟨_, rfl, rfl⟩, ⟨fun _ _ => rfl, nofun⟩,
    ⟨fun _ _ => rfl, nofun⟩, trivial⟩

/-- A removal fails after a crash of the runner, and succeeds for a `kill`. -/
def killAfterFailure : List Event :=
  [.resume 0 .fulfilled, .connect true, .pang none, .resume 0 .fulfilled, .exited (.ok 1),
    .cleaned true none none, .cleaned true none none, .resume 0 .fulfilled, .removed false,
    .transition, .kill true, .removed true]

theorem killAfterFailure_unfinished :
    ¬ ∀ (entrypointPath : String) (inputTopic : Option String) (delay : ℕ)
        (thrown : Option String) (es : List Event),
      System.Always next Finishable (start entrypointPath inputTopic delay thrown) es := by
  intro h
  have hlast := System.always_last (h "main.js" none 0 none killAfterFailure)
  have hsettled : Settled (killAfterFailure.foldl next (start "main.js" none 0 none)) := by
    constructor
    · constructor
      · rfl
      · intro tr htr
        cases htr
    · intro t ht
      cases ht
  have hended := hlast.ended hsettled rfl
  cases hended

end TransformHub.Host.CsiController

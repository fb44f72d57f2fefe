import TransformHub.MultiManager.Lifecycle

/-!
# What is left of Managers

What is promised of the Managers holds in every run in which the operations on one id do not overlap
(`Careful`).
-/

namespace TransformHub.MultiManager

open OrderedMap

namespace MultiManagerState

/-! ## The property and the condition -/

def HasManager (s : MultiManagerState) (i : ℕ) (e : ManagerEntry) : Prop := s.managers[i]? = some e

def HasStop (s : MultiManagerState) (k : ℕ) (c : StopCall) : Prop := s.stopCalls[k]? = some c

structure Safe (s : MultiManagerState) : Prop where
  unique : ∀ {i j e e'}, s.HasManager i e → s.HasManager j e' → e.Live → e'.Live →
    e.config.id = e'.config.id → i = j
  kept : ∀ {i e}, s.HasManager i e → e.stage = .done → e.main = .resolved →
    s.managersStore.get? e.config.id = some i ∨ e.stopped = true ∧ e.Detached
  stopped : s.shutdown = .completed → ∀ {i e}, s.HasManager i e → ¬ e.Live

/-- A call of `startManagers` with configurations of distinct ids starts these. -/
def StartsListed (defaultConfig : ManagerConfiguration) (s : MultiManagerState) : Action → Prop
  | .startManagers (.list given) =>
    (given.map fun g => (g.withDefaults defaultConfig).id).Nodup →
      ((s.next defaultConfig (.startManagers (.list given))).managers.drop s.managers.length).map
        (fun e => e.config) = given.map (·.withDefaults defaultConfig)
  | _ => True

/-- No start and no `stopManager` of the id is in progress, and `stop` was not called. -/
structure Free (s : MultiManagerState) (id : String) : Prop where
  shutdown : s.shutdown = .notCalled
  starts : ∀ {i e}, s.HasManager i e → e.config.id = id → ¬ e.InProgress
  stops : ∀ {k c}, s.HasStop k c → c.id = id → c.stage = .done

/-- The operations on an id do not overlap, `stop` overlaps with no start, the peers of a Manager
are attached without an error, and no list of Managers of distinct ids is configured. -/
def Careful (defaultConfig : ManagerConfiguration) (s : MultiManagerState) : Action → Prop
  | .startManagers (.list given) =>
    (given.map fun g => (g.withDefaults defaultConfig).id).Nodup → given = []
  | .startManagers manager =>
    ∀ config ∈ managerConfigs defaultConfig manager, Js.trim config.id ≠ "" →
      s.managersStore.has config.id = false → s.Free config.id
  | .startRequest config overloaded =>
    overloaded = false → s.managersStore.has config.id = false → s.Free config.id
  | .peerSettles m ok => ∀ {e}, s.HasManager m e → e.stage ∈ [.broker, .guest, .control] →
      ok = true
  | .stopManager id => s.managersStore.has id = true →
      (∀ {i e}, s.HasManager i e → e.config.id = id → ¬ e.InProgress) ∧
        ∀ {k c}, s.HasStop k c → c.id = id → c.stage = .done
  | .stop => s.shutdown = .notCalled → ∀ {i e}, s.HasManager i e → ¬ e.InProgress
  | _ => True

/-! ## Updates -/

section Updates

variable (s : MultiManagerState)

theorem getElem?_update (p : ℕ → Bool) (f : ManagerEntry → ManagerEntry) (i : ℕ) :
    (s.update p f).managers[i]? = (s.managers[i]?).map fun e => if p i then f e else e := by
  unfold update
  rw [List.getElem?_mapIdx]

theorem entry_update {p : ℕ → Bool} {f : ManagerEntry → ManagerEntry} {i : ℕ} {e' : ManagerEntry}
    (h : (s.update p f).managers[i]? = some e') :
    ∃ e, s.managers[i]? = some e ∧ e' = if p i then f e else e := by
  rw [getElem?_update] at h
  obtain ⟨e, he, heq⟩ := Option.map_eq_some_iff.mp h
  exact ⟨e, he, heq.symm⟩

end Updates

/-! ## The invariant -/

/-- The peers of a Manager can be found by its id. -/
structure Held (s : MultiManagerState) (i : ℕ) (e : ManagerEntry) : Prop where
  handles : e.broker = true ∨ e.guest = true →
    s.managerVerser2Handles.get? e.config.id = some i
  guests : e.control = true → s.controlIngressGuests.get? e.config.id = some i
  control : e.control = true → s.managerVerser2Handles.get? e.config.id = some i ∨
    ∃ k c, s.HasStop k c ∧ c.id = e.config.id ∧ c.stage = .control

/-- The Manager is not in the store yet, nor stopped. -/
def Absent (s : MultiManagerState) (e : ManagerEntry) : Prop :=
  e.stopped = false ∧ s.managersStore.get? e.config.id = none

/-- What holds of a Manager by the stage of its start. -/
def Staged (s : MultiManagerState) (i : ℕ) (e : ManagerEntry) : Prop :=
  match e.stage with
  | .main => e.main = .running ∧ e.Detached ∧ s.Absent e
  | .started => e.Detached ∧ (e.main ≠ .rejected → s.Absent e)
  | .broker => e.main = .resolved ∧ e.Detached ∧ s.Absent e
  | .guest => e.main = .resolved ∧ e.guest = false ∧ e.control = false ∧ s.Absent e
  | .control => e.main = .resolved ∧ e.guest = true ∧ e.control = false ∧ s.Held i e ∧ s.Absent e
  | .undo => False
  | .add => (e.main ≠ .resolved → e.Detached ∧ e.initial = true) ∧ s.Held i e ∧ s.Absent e
  | .awaitMain => (e.main ≠ .resolved → e.Detached) ∧ s.Held i e ∧
      s.managersStore.get? e.config.id = some i
  | .done => e.main ≠ .running ∧ (e.main = .rejected → e.Detached) ∧ s.Held i e ∧
      (e.main = .resolved →
        s.managersStore.get? e.config.id = some i ∨ e.stopped = true ∧ e.Detached)

/-- What holds of the Manager that a call of `stopManager` stops. -/
def StopStaged (e : ManagerEntry) : StopStage → Prop
  | .stop => True
  | .detach => e.stopped = true
  | .control => e.stopped = true ∧ e.broker = false ∧ e.guest = false
  | .remove => e.stopped = true ∧ e.Detached
  | .done => True

structure Inv (s : MultiManagerState) : Prop where
  staged : ∀ {i e}, s.HasManager i e → s.Staged i e
  /-- starts of one id do not overlap -/
  starts : ∀ {i j e e'}, s.HasManager i e → s.HasManager j e' → e.InProgress →
    e'.InProgress → e.config.id = e'.config.id → i = j
  store : ∀ {id i}, s.managersStore.get? id = some i → ∃ e, s.HasManager i e ∧
    e.config.id = id ∧ (e.stage = .awaitMain ∨ e.stage = .done)
  handles : ∀ {id i}, s.managerVerser2Handles.get? id = some i →
    ∃ e, s.HasManager i e ∧ e.config.id = id
  guests : ∀ {id i}, s.controlIngressGuests.get? id = some i →
    ∃ e, s.HasManager i e ∧ e.config.id = id
  host : s.shutdown = .notCalled → ∀ {i e}, s.HasManager i e →
    e.stage = .started ∨ e.stage = .broker → s.verser2Host = true
  /-- the Manager that is being stopped, and what else goes on for its id -/
  stops : ∀ {k c}, s.HasStop k c → c.stage ≠ .done →
    (∃ e, s.HasManager c.manager e ∧ e.config.id = c.id ∧ e.stage = .done ∧
      StopStaged e c.stage) ∧
    (∀ {i e}, s.HasManager i e → e.config.id = c.id → ¬ e.InProgress) ∧
    (∀ {i}, s.managersStore.get? c.id = some i → i = c.manager)
  stopsOnce : ∀ {k l c d}, s.HasStop k c → s.HasStop l d → c.stage ≠ .done →
    d.stage ≠ .done → c.id = d.id → k = l
  quiet : s.shutdown ≠ .notCalled → ∀ {i e}, s.HasManager i e →
    ¬ e.InProgress ∧ e.control = false
  detached : s.shutdown ∉ [.notCalled, .guests, .controlHost, .failed] →
    ∀ {i e}, s.HasManager i e → e.Detached
  leaving : ∀ {listed left}, s.shutdown = .managers listed left →
    ∀ {i e}, s.HasManager i e → e.Live → i ∈ left
  stopped : s.shutdown ∈ [.server, .completed] → ∀ {i e}, s.HasManager i e → ¬ e.Live

variable {s s' : MultiManagerState} {i m : ℕ} {e e' : ManagerEntry}

theorem inv_new (verser2Host controlIngressHost : Bool) :
    (new verser2Host controlIngressHost).Inv where
  staged := nofun
  starts := nofun
  store := nofun
  handles := nofun
  guests := nofun
  host := fun _ => nofun
  stops := nofun
  stopsOnce := nofun
  quiet := fun h => absurd rfl h
  detached := fun h => absurd List.mem_cons_self h
  leaving := nofun
  stopped := fun h => absurd h (by simp [new])

/-! ### What the stages say -/

theorem HasManager.eq (h : s.HasManager i e) (h' : s.HasManager i e') : e = e' :=
  Option.some.inj (h.symm.trans h')

theorem inProgress_of_stage {stage : StartStage} (h : e.stage = stage) (hdone : stage ≠ .done)
    (hstarted : stage ≠ .started) : e.InProgress :=
  ⟨h ▸ hdone, fun hhung => hstarted (h.symm.trans hhung.1)⟩

theorem delete_cases (store : OrderedMap String ℕ) (id id' : String) :
    (store.delete id).get? id' = store.get? id' ∨
      id' = id ∧ (store.delete id).get? id' = none := by
  by_cases h : id' = id
  · subst h
    exact .inr ⟨rfl, store.get?_delete_self _⟩
  · exact .inl (store.get?_delete_of_ne (Ne.symm h))

theorem set_cases (store : OrderedMap String ℕ) (id id' : String) (m : ℕ) :
    (store.set id m).get? id' = store.get? id' ∨
      id' = id ∧ (store.set id m).get? id' = some m := by
  by_cases h : id' = id
  · subst h
    exact .inr ⟨rfl, store.get?_set_self _ _⟩
  · exact .inl (store.get?_set_of_ne (Ne.symm h) _)

theorem HasStop.of_eq {k : ℕ} {c : StopCall} (hcalls : s'.stopCalls = s.stopCalls)
    (hc : s'.HasStop k c) : s.HasStop k c := by
  unfold HasStop at *
  rw [← hcalls]
  exact hc

theorem Held.of_detached (h : e.Detached) : s.Held i e where
  handles := by
    rintro (hbroker | hguest)
    · rw [h.1] at hbroker
      cases hbroker
    · rw [h.2.1] at hguest
      cases hguest
  guests := fun hcontrol => (by rw [h.2.2] at hcontrol; cases hcontrol)
  control := fun hcontrol => (by rw [h.2.2] at hcontrol; cases hcontrol)

theorem Staged.store_of_inProgress (h : s.Staged i e) (hprogress : e.InProgress) :
    s.managersStore.get? e.config.id = none ∨ s.managersStore.get? e.config.id = some i := by
  unfold Staged at h
  cases hstage : e.stage <;> rw [hstage] at h
  case main => exact .inl h.2.2.2
  case started => exact .inl (h.2 fun hmain => hprogress.2 ⟨hstage, hmain⟩).2
  case broker => exact .inl h.2.2.2
  case guest => exact .inl h.2.2.2.2
  case control => exact .inl h.2.2.2.2.2
  case undo => exact absurd h id
  case add => exact .inl h.2.2.2
  case awaitMain => exact .inr h.2.2
  case done => exact absurd hstage hprogress.1

theorem Staged.quiet (h : s.Staged i e) (hprogress : ¬ e.InProgress)
    (hstore : s.managersStore.get? e.config.id ≠ some i) :
    e.Detached ∧ (e.main = .resolved → e.stopped = true) ∧
      (e.stage = .done ∧ e.main ≠ .running ∨ e.stage = .started ∧ e.main = .rejected) := by
  by_cases hdone : e.stage = .done
  · unfold Staged at h
    rw [hdone] at h
    obtain ⟨hrunning, hrejected, -, hresolved⟩ := h
    cases hmain : e.main with
    | running => exact absurd hmain hrunning
    | rejected => exact ⟨hrejected hmain, nofun, .inl ⟨hdone, nofun⟩⟩
    | resolved =>
      obtain ⟨hstopped, hdetached⟩ := (hresolved hmain).resolve_left hstore
      exact ⟨hdetached, fun _ => hstopped, .inl ⟨hdone, nofun⟩⟩
  · have hhung : e.stage = .started ∧ e.main = .rejected := by
      by_contra hnot
      exact hprogress ⟨hdone, hnot⟩
    unfold Staged at h
    rw [hhung.1] at h
    refine ⟨h.1, fun hmain => ?_, .inr hhung⟩
    rw [hhung.2] at hmain
    cases hmain

theorem Staged.held (h : s.Staged i e) (hprogress : ¬ e.InProgress) : s.Held i e := by
  unfold Staged at h
  by_cases hdone : e.stage = .done
  · rw [hdone] at h
    exact h.2.2.1
  · have hhung : e.stage = .started ∧ e.main = .rejected := by
      by_contra hnot
      exact hprogress ⟨hdone, hnot⟩
    rw [hhung.1] at h
    exact .of_detached h.1

theorem Staged.of_quiet (hdetached : e.Detached) (hstopped : e.main = .resolved → e.stopped = true)
    (hstage : e.stage = .done ∧ e.main ≠ .running ∨ e.stage = .started ∧ e.main = .rejected) :
    s.Staged i e := by
  unfold Staged
  rcases hstage with ⟨hdone, hrunning⟩ | ⟨hstarted, hrejected⟩
  · rw [hdone]
    exact ⟨hrunning, fun _ => hdetached, .of_detached hdetached,
      fun hmain => .inr ⟨hstopped hmain, hdetached⟩⟩
  · rw [hstarted]
    exact ⟨hdetached, fun hmain => absurd hrejected hmain⟩

theorem Staged.congr (h : s.Staged i e)
    (hstore : s'.managersStore.get? e.config.id = s.managersStore.get? e.config.id)
    (hhandles : s'.managerVerser2Handles.get? e.config.id = s.managerVerser2Handles.get? e.config.id)
    (hguests : s'.controlIngressGuests.get? e.config.id = s.controlIngressGuests.get? e.config.id)
    (hstops : ∀ k c, s.HasStop k c → c.id = e.config.id → c.stage = .control →
      ∃ k' c', s'.HasStop k' c' ∧ c'.id = e.config.id ∧ c'.stage = .control) : s'.Staged i e := by
  have hheld : s.Held i e → s'.Held i e := by
    intro hheld
    refine ⟨fun hpeers => hhandles.trans (hheld.handles hpeers),
      fun hcontrol => hguests.trans (hheld.guests hcontrol), fun hcontrol => ?_⟩
    rcases hheld.control hcontrol with hfound | ⟨k, c, hc, hid, hstage⟩
    · exact .inl (hhandles.trans hfound)
    · exact .inr (hstops k c hc hid hstage)
  have habsent : s.Absent e → s'.Absent e := fun habsent => ⟨habsent.1, hstore.trans habsent.2⟩
  unfold Staged at h ⊢
  cases hstage : e.stage <;> rw [hstage] at h
  case main => exact ⟨h.1, h.2.1, habsent h.2.2⟩
  case started => exact ⟨h.1, fun hmain => habsent (h.2 hmain)⟩
  case broker => exact ⟨h.1, h.2.1, habsent h.2.2⟩
  case guest => exact ⟨h.1, h.2.1, h.2.2.1, habsent h.2.2.2⟩
  case control => exact ⟨h.1, h.2.1, h.2.2.1, hheld h.2.2.2.1, habsent h.2.2.2.2⟩
  case undo => exact h
  case add => exact ⟨h.1, hheld h.2.1, habsent h.2.2⟩
  case awaitMain => exact ⟨h.1, hheld h.2.1, hstore.trans h.2.2⟩
  case done =>
    refine ⟨h.1, h.2.1, hheld h.2.2.1, fun hmain => ?_⟩
    exact (h.2.2.2 hmain).imp hstore.trans id

theorem Inv.place (h : s.Inv) (he : s.HasManager i e) (hlive : e.Live) :
    s.managersStore.get? e.config.id = some i ∨
      e.InProgress ∧ s.managersStore.get? e.config.id = none := by
  by_cases hprogress : e.InProgress
  · rcases (h.staged he).store_of_inProgress hprogress with hnone | hsome
    · exact .inr ⟨hprogress, hnone⟩
    · exact .inl hsome
  · by_contra hnot
    rw [not_or] at hnot
    obtain ⟨-, hstopped, hstage⟩ := (h.staged he).quiet hprogress hnot.1
    rcases hstage with ⟨-, hrunning⟩ | ⟨-, hrejected⟩
    · cases hmain : e.main with
      | running => exact hrunning hmain
      | rejected => exact hlive.1 hmain
      | resolved =>
        have hnot := hlive.2
        rw [hstopped hmain] at hnot
        cases hnot
    · exact hlive.1 hrejected

theorem Inv.safe (h : s.Inv) : s.Safe where
  unique := by
    intro i j e e' he he' hlive hlive' hid
    rcases h.place he hlive with hi | ⟨hi, hnone⟩
    · rcases h.place he' hlive' with hj | ⟨-, hnone⟩
      · rw [← hid, hi] at hj
        exact Option.some.inj hj
      · rw [← hid, hi] at hnone
        cases hnone
    · rcases h.place he' hlive' with hj | ⟨hj, -⟩
      · rw [← hid, hnone] at hj
        cases hj
      · exact h.starts he he' hi hj hid
  kept := by
    intro i e he hdone hmain
    have hstaged := h.staged he
    unfold Staged at hstaged
    rw [hdone] at hstaged
    exact hstaged.2.2.2 hmain
  stopped := fun hcompleted _ _ he => h.stopped (by rw [hcompleted]; decide) he

/-! ### Steps that stop Managers -/

/-- What a Manager can become without a step of its start: less of it is attached, or it is
stopped. -/
structure Quieter (e e' : ManagerEntry) : Prop where
  config : e'.config = e.config
  stage : e'.stage = e.stage
  main : e'.main = e.main
  stopped : e.stopped = true → e'.stopped = true
  broker : e.broker = false → e'.broker = false
  guest : e.guest = false → e'.guest = false
  control : e.control = false → e'.control = false

theorem Quieter.refl (e : ManagerEntry) : Quieter e e := ⟨rfl, rfl, rfl, id, id, id, id⟩

theorem Quieter.inProgress (h : Quieter e e') : e'.InProgress ↔ e.InProgress := by
  unfold ManagerEntry.InProgress
  rw [h.stage, h.main]

theorem Quieter.live (h : Quieter e e') (hlive : e'.Live) : e.Live := by
  refine ⟨fun hmain => hlive.1 (h.main.trans hmain), ?_⟩
  cases hstopped : e.stopped with
  | false => rfl
  | true =>
    have hnot := hlive.2
    rw [h.stopped hstopped] at hnot
    cases hnot

theorem Quieter.detached (h : Quieter e e') (hdetached : e.Detached) : e'.Detached :=
  ⟨h.broker hdetached.1, h.guest hdetached.2.1, h.control hdetached.2.2⟩

theorem Quieter.peers (h : Quieter e e') (hpeers : e'.broker = true ∨ e'.guest = true) :
    e.broker = true ∨ e.guest = true := by
  by_contra hnot
  rw [not_or, Bool.not_eq_true, Bool.not_eq_true] at hnot
  rw [h.broker hnot.1, h.guest hnot.2] at hpeers
  rcases hpeers with hfalse | hfalse <;> cases hfalse

theorem Quieter.controlled (h : Quieter e e') (hcontrol : e'.control = true) :
    e.control = true := by
  by_contra hnot
  rw [h.control (Bool.not_eq_true _ ▸ hnot)] at hcontrol
  cases hcontrol

theorem Quieter.stopStaged {stage : StopStage} (h : Quieter e e') (hstaged : StopStaged e stage) :
    StopStaged e' stage := by
  cases stage with
  | stop => trivial
  | detach => exact h.stopped hstaged
  | control => exact ⟨h.stopped hstaged.1, h.broker hstaged.2.1, h.guest hstaged.2.2⟩
  | remove => exact ⟨h.stopped hstaged.1, h.detached hstaged.2⟩
  | done => trivial

theorem Held.quieter (h : s.Held i e) (hquieter : Quieter e e')
    (hhandles : e'.broker = true ∨ e'.guest = true →
      s'.managerVerser2Handles.get? e.config.id = s.managerVerser2Handles.get? e.config.id)
    (hguests : e'.control = true →
      s'.controlIngressGuests.get? e.config.id = s.controlIngressGuests.get? e.config.id)
    (hcontrol : e'.control = true → (s.managerVerser2Handles.get? e.config.id = some i ∨
        ∃ k c, s.HasStop k c ∧ c.id = e.config.id ∧ c.stage = .control) →
      s'.managerVerser2Handles.get? e.config.id = some i ∨
        ∃ k c, s'.HasStop k c ∧ c.id = e.config.id ∧ c.stage = .control) : s'.Held i e' where
  handles := by
    intro hpeers
    rw [hquieter.config, hhandles hpeers]
    exact h.handles (hquieter.peers hpeers)
  guests := by
    intro hleft
    rw [hquieter.config, hguests hleft]
    exact h.guests (hquieter.controlled hleft)
  control := by
    intro hleft
    rw [hquieter.config]
    exact hcontrol hleft (h.control (hquieter.controlled hleft))

theorem Staged.quieter (h : s.Staged i e) (hprogress : ¬ e.InProgress) (hquieter : Quieter e e')
    (hheld : s'.Held i e')
    (hkept : e.main = .resolved → s.managersStore.get? e.config.id = some i ∨
      e.stopped = true ∧ e.Detached → s'.managersStore.get? e.config.id = some i ∨
      e'.stopped = true ∧ e'.Detached) : s'.Staged i e' := by
  unfold Staged at h ⊢
  rw [hquieter.stage, hquieter.main, hquieter.config]
  by_cases hdone : e.stage = .done
  · rw [hdone] at h ⊢
    exact ⟨h.1, fun hmain => hquieter.detached (h.2.1 hmain), hheld, fun hmain =>
      hkept hmain (h.2.2.2 hmain)⟩
  · have hhung : e.stage = .started ∧ e.main = .rejected := by
      by_contra hnot
      exact hprogress ⟨hdone, hnot⟩
    rw [hhung.1] at h ⊢
    exact ⟨hquieter.detached h.1, fun hmain => absurd hhung.2 hmain⟩

/-- The Managers of one state are those of another, or quieter. -/
structure QuieterState (s s' : MultiManagerState) : Prop where
  backward : ∀ {i e'}, s'.HasManager i e' → ∃ e, s.HasManager i e ∧ Quieter e e'
  forward : ∀ {i e}, s.HasManager i e → ∃ e', s'.HasManager i e' ∧ Quieter e e'

theorem QuieterState.refl (hmanagers : s'.managers = s.managers) : QuieterState s s' where
  backward := fun {i e'} he' => ⟨e', (by rw [HasManager, ← hmanagers]; exact he'), .refl e'⟩
  forward := fun {i e} he => ⟨e, (by rw [HasManager, hmanagers]; exact he), .refl e⟩

theorem QuieterState.update {p : ℕ → Bool} {f : ManagerEntry → ManagerEntry}
    (hmanagers : s'.managers = (s.update p f).managers) (hf : ∀ e, Quieter e (f e)) :
    QuieterState s s' where
  backward := by
    intro i e' he'
    rw [HasManager, hmanagers] at he'
    obtain ⟨e, he, rfl⟩ := s.entry_update he'
    refine ⟨e, he, ?_⟩
    split
    · exact hf e
    · exact .refl e
  forward := by
    intro i e he
    refine ⟨if p i then f e else e, ?_, ?_⟩
    · rw [HasManager, hmanagers, getElem?_update, show s.managers[i]? = some e from he]
      rfl
    · split
      · exact hf e
      · exact .refl e

section

variable (h : s.Inv) (hstate : QuieterState s s')
  (hstaged : ∀ {i e'}, s'.HasManager i e' → s'.Staged i e')
  (hstore : ∀ {id i}, s'.managersStore.get? id = some i → s.managersStore.get? id = some i)
  (hhandles : ∀ {id i}, s'.managerVerser2Handles.get? id = some i →
    s.managerVerser2Handles.get? id = some i)
  (hguests : ∀ {id i}, s'.controlIngressGuests.get? id = some i →
    s.controlIngressGuests.get? id = some i)
  (hstops : ∀ {k c'}, s'.HasStop k c' → c'.stage ≠ .done → ∃ c, s.HasStop k c ∧
    c.stage ≠ .done ∧ c.id = c'.id ∧ c.manager = c'.manager ∧
    ∀ {e'}, s'.HasManager c.manager e' → StopStaged e' c'.stage)
include h hstate hstaged hstore hhandles hguests hstops

/-- The invariant over a step that stops Managers: what is left to show is what holds of the single
Managers and of the calls that stop them. -/
theorem Inv.quieter
    (hhost : s'.shutdown = .notCalled → s.shutdown = .notCalled ∧ s'.verser2Host = s.verser2Host)
    (hquiet : s'.shutdown ≠ .notCalled → ∀ {i e}, s'.HasManager i e →
      ¬ e.InProgress ∧ e.control = false)
    (hdetached : s'.shutdown ∉ [.notCalled, .guests, .controlHost, .failed] →
      ∀ {i e}, s'.HasManager i e → e.Detached)
    (hleaving : ∀ {listed left}, s'.shutdown = .managers listed left →
      ∀ {i e}, s'.HasManager i e → e.Live → i ∈ left)
    (hstopped : s'.shutdown ∈ [.server, .completed] → ∀ {i e}, s'.HasManager i e → ¬ e.Live) :
    s'.Inv where
  staged := hstaged
  starts := by
    intro i j e e' he he' hprogress hprogress' hid
    obtain ⟨f, hf, hquieter⟩ := hstate.backward he
    obtain ⟨f', hf', hquieter'⟩ := hstate.backward he'
    apply h.starts hf hf' (hquieter.inProgress.mp hprogress) (hquieter'.inProgress.mp hprogress')
    rw [← hquieter.config, ← hquieter'.config]
    exact hid
  store := by
    intro id i hi
    obtain ⟨e, he, hid, hstage⟩ := h.store (hstore hi)
    obtain ⟨e', he', hquieter⟩ := hstate.forward he
    refine ⟨e', he', by rw [hquieter.config]; exact hid, ?_⟩
    rw [hquieter.stage]
    exact hstage
  handles := by
    intro id i hi
    obtain ⟨e, he, hid⟩ := h.handles (hhandles hi)
    obtain ⟨e', he', hquieter⟩ := hstate.forward he
    exact ⟨e', he', by rw [hquieter.config]; exact hid⟩
  guests := by
    intro id i hi
    obtain ⟨e, he, hid⟩ := h.guests (hguests hi)
    obtain ⟨e', he', hquieter⟩ := hstate.forward he
    exact ⟨e', he', by rw [hquieter.config]; exact hid⟩
  host := by
    intro hshutdown i e' he' hstage
    obtain ⟨hbefore, heq⟩ := hhost hshutdown
    obtain ⟨e, he, hquieter⟩ := hstate.backward he'
    rw [hquieter.stage] at hstage
    exact heq.trans (h.host hbefore he hstage)
  stops := by
    intro k c' hc' hstage
    obtain ⟨c, hc, hopen, hid, hmanager, hstop⟩ := hstops hc' hstage
    obtain ⟨⟨e, he, heid, hdone, -⟩, hothers, honly⟩ := h.stops hc hopen
    obtain ⟨e', he', hquieter⟩ := hstate.forward he
    rw [← hid, ← hmanager]
    refine ⟨⟨e', he', ?_, hquieter.stage.trans hdone, hstop he'⟩, ?_, fun hi => honly (hstore hi)⟩
    · rw [hquieter.config]
      exact heid
    · intro j f' hf' hfid hprogress
      obtain ⟨f, hf, hquieter'⟩ := hstate.backward hf'
      rw [hquieter'.config] at hfid
      exact hothers hf hfid (hquieter'.inProgress.mp hprogress)
  stopsOnce := by
    intro k l c d hc hd hopen hopen' hid
    obtain ⟨c₀, hc₀, hstage, hcid, -⟩ := hstops hc hopen
    obtain ⟨d₀, hd₀, hstage', hdid, -⟩ := hstops hd hopen'
    exact h.stopsOnce hc₀ hd₀ hstage hstage' (hcid.trans (hid.trans hdid.symm))
  quiet := hquiet
  detached := hdetached
  leaving := hleaving
  stopped := hstopped

theorem Inv.quieter_same (hshutdown : s'.shutdown = s.shutdown)
    (hverser2 : s'.verser2Host = s.verser2Host) : s'.Inv := by
  refine h.quieter hstate hstaged hstore hhandles hguests hstops ?_ ?_ ?_ ?_ ?_ <;>
    rw [hshutdown]
  · exact fun hnot => ⟨hnot, hverser2⟩
  · intro hcalled i e' he'
    obtain ⟨e, he, hquieter⟩ := hstate.backward he'
    obtain ⟨hprogress, hcontrol⟩ := h.quiet hcalled he
    exact ⟨fun hprogress' => hprogress (hquieter.inProgress.mp hprogress'), hquieter.control hcontrol⟩
  · intro hlate i e' he'
    obtain ⟨e, he, hquieter⟩ := hstate.backward he'
    exact hquieter.detached (h.detached hlate he)
  · intro listed left hleaving i e' he' hlive
    obtain ⟨e, he, hquieter⟩ := hstate.backward he'
    exact h.leaving hleaving he (hquieter.live hlive)
  · intro hlate i e' he' hlive
    obtain ⟨e, he, hquieter⟩ := hstate.backward he'
    exact h.stopped hlate he (hquieter.live hlive)

end

/-! ### Calls of `stopManager` -/

section StopCalls

variable {k l : ℕ} {c d : StopCall} {stage : StopStage}

theorem stop_setStopStage (h : (s.setStopStage k stage).HasStop l d) :
    ∃ c, s.HasStop l c ∧ d = if l = k then { c with stage } else c := by
  unfold HasStop setStopStage at h
  rw [List.getElem?_modify] at h
  obtain ⟨c, hc, rfl⟩ := Option.map_eq_some_iff.mp h
  refine ⟨c, hc, ?_⟩
  by_cases hk : k = l
  · rw [if_pos hk, if_pos hk.symm]
  · rw [if_neg hk, if_neg (Ne.symm hk)]

theorem hasStop_setStopStage_self (h : s.HasStop k c) :
    (s.setStopStage k stage).HasStop k { c with stage } := by
  unfold HasStop setStopStage at *
  rw [List.getElem?_modify, h]
  simp

theorem hasStop_setStopStage_of_ne (h : s.HasStop l c) (hne : l ≠ k) :
    (s.setStopStage k stage).HasStop l c := by
  unfold HasStop setStopStage at *
  rw [List.getElem?_modify, h]
  simp [hne.symm]

theorem Inv.held_manager (h : s.Inv) (hc : s.HasStop k c) (hopen : c.stage ≠ .done)
    (he : s.HasManager i e) (hid : e.config.id = c.id) : s.Held i e :=
  (h.staged he).held ((h.stops hc hopen).2.1 he hid)

theorem update_foreign {p : ℕ → Bool} {f : ManagerEntry → ManagerEntry} {id : String}
    (hp : ∀ {i e}, s.HasManager i e → p i = true → e.config.id = id) (he : s.HasManager i e)
    (he' : (s.update p f).HasManager i e') (hid : e.config.id ≠ id) : e' = e := by
  obtain ⟨g, hg, rfl⟩ := s.entry_update he'
  obtain rfl := he.eq hg
  exact if_neg fun hi => hid (hp he hi)

theorem Inv.stopping (h : s.Inv) (hc : s.HasStop k c) (hopen : c.stage ≠ .done)
    (hstate : QuieterState s s') (hshutdown : s'.shutdown = s.shutdown)
    (hverser2 : s'.verser2Host = s.verser2Host)
    (hcalls : s'.stopCalls = (s.setStopStage k stage).stopCalls)
    (hforeign : ∀ {i e e'}, s.HasManager i e → s'.HasManager i e' → e.config.id ≠ c.id → e' = e)
    (hstore : ∀ id, s'.managersStore.get? id = s.managersStore.get? id ∨
      id = c.id ∧ s'.managersStore.get? id = none)
    (hhandles : ∀ id, s'.managerVerser2Handles.get? id = s.managerVerser2Handles.get? id ∨
      id = c.id ∧ s'.managerVerser2Handles.get? id = none)
    (hguests : ∀ id, s'.controlIngressGuests.get? id = s.controlIngressGuests.get? id ∨
      id = c.id ∧ s'.controlIngressGuests.get? id = none)
    (hown : ∀ {i e e'}, s.HasManager i e → s'.HasManager i e' → e.config.id = c.id → s.Held i e →
      s'.Held i e' ∧ (s.managersStore.get? e.config.id = some i →
        s'.managersStore.get? e.config.id = some i ∨ e'.stopped = true ∧ e'.Detached))
    (hstop : ∀ {e'}, s'.HasManager c.manager e' → StopStaged e' stage) : s'.Inv := by
  have hback : ∀ {l d}, s'.HasStop l d → ∃ c, s.HasStop l c ∧ d = if l = k then { c with stage } else c := by
    intro l d hd
    unfold HasStop at hd
    rw [hcalls] at hd
    exact stop_setStopStage hd
  have hsub : ∀ {m' m : OrderedMap String ℕ},
      (∀ id, m'.get? id = m.get? id ∨ id = c.id ∧ m'.get? id = none) →
      ∀ {id i}, m'.get? id = some i → m.get? id = some i := by
    intro m' m hm id i hi
    rcases hm id with heq | ⟨-, hnone⟩
    · exact heq.symm.trans hi
    · rw [hnone] at hi
      cases hi
  refine h.quieter_same hstate ?_ (hsub hstore) (hsub hhandles) (hsub hguests) ?_ hshutdown hverser2
  · intro i e' he'
    obtain ⟨e, he, hquieter⟩ := hstate.backward he'
    by_cases hid : e.config.id = c.id
    · -- the Manager is one of the id that is being stopped
      have hprogress := (h.stops hc hopen).2.1 he hid
      obtain ⟨hheld, hkept⟩ := hown he he' hid (h.held_manager hc hopen he hid)
      refine (h.staged he).quieter hprogress hquieter hheld fun _ hbefore => ?_
      rcases hbefore with hfound | ⟨hstopped, hdetached⟩
      · exact hkept hfound
      · exact .inr ⟨hquieter.stopped hstopped, hquieter.detached hdetached⟩
    · obtain rfl := hforeign he he' hid
      apply (h.staged he).congr ((hstore _).resolve_right fun hnot => hid hnot.1)
        ((hhandles _).resolve_right fun hnot => hid hnot.1)
        ((hguests _).resolve_right fun hnot => hid hnot.1)
      intro l d hd hdid hstage
      have hne : l ≠ k := by
        rintro rfl
        obtain rfl := Option.some.inj (hc.symm.trans hd)
        exact hid hdid.symm
      exact ⟨l, d, (hasStop_setStopStage_of_ne hd hne).of_eq hcalls.symm, hdid, hstage⟩
  · intro l d hd hdopen
    obtain ⟨c', hc', rfl⟩ := hback hd
    by_cases hl : l = k
    · subst hl
      obtain rfl := Option.some.inj (hc.symm.trans hc')
      rw [if_pos rfl]
      exact ⟨c, hc, hopen, rfl, rfl, fun he' => hstop he'⟩
    · rw [if_neg hl] at hdopen ⊢
      refine ⟨c', hc', hdopen, rfl, rfl, fun {e'} he' => ?_⟩
      obtain ⟨⟨e, he, -, -, hstaged⟩, -⟩ := h.stops hc' hdopen
      obtain ⟨f, hf, hquieter⟩ := hstate.backward he'
      obtain rfl := he.eq hf
      exact hquieter.stopStaged hstaged

theorem Held.handles_of_none (h : s.Held i e)
    (hnone : s.managerVerser2Handles.get? e.config.id ≠ some i) :
    e.broker = false ∧ e.guest = false := by
  constructor
  · cases hbroker : e.broker with
    | false => rfl
    | true => exact absurd (h.handles (.inl hbroker)) hnone
  · cases hguest : e.guest with
    | false => rfl
    | true => exact absurd (h.handles (.inr hguest)) hnone

theorem controlCall_setStopStage
    (h : ∃ l d, s.HasStop l d ∧ d.id = e.config.id ∧ d.stage = .control)
    (hcalls : s'.stopCalls = (s.setStopStage k stage).stopCalls) (hc : s.HasStop k c)
    (hstage : c.stage ≠ .control) :
    ∃ l d, s'.HasStop l d ∧ d.id = e.config.id ∧ d.stage = .control := by
  obtain ⟨l, d, hd, hid, hcontrol⟩ := h
  have hne : l ≠ k := by
    rintro rfl
    obtain rfl := Option.some.inj (hc.symm.trans hd)
    exact hstage hcontrol
  exact ⟨l, d, (hasStop_setStopStage_of_ne hd hne).of_eq hcalls.symm, hid, hcontrol⟩

section

variable (h : s.Inv) (hc : s.HasStop k c)
include h hc

theorem Inv.stopSettles (hstage : c.stage = .stop)
    (hnext : stage = .detach ∨ stage = .done) :
    ((s.update (· = c.manager) fun e => { e with stopped := true }).setStopStage k stage).Inv := by
  have hopen : c.stage ≠ .done := by
    rw [hstage]
    decide
  have hstate : QuieterState s
      ((s.update (· = c.manager) fun e => { e with stopped := true }).setStopStage k stage) :=
    .update rfl fun e => ⟨rfl, rfl, rfl, fun _ => rfl, id, id, id⟩
  apply h.stopping hc hopen hstate rfl rfl rfl
  · refine update_foreign fun he hi => ?_
    obtain ⟨⟨m, hm, hmid, -⟩, -⟩ := h.stops hc hopen
    obtain rfl := of_decide_eq_true hi
    exact he.eq hm ▸ hmid
  · exact fun id => .inl rfl
  · exact fun id => .inl rfl
  · exact fun id => .inl rfl
  · intro i e e' he he' hid hheld
    obtain ⟨f, hf, hquieter⟩ := hstate.backward he'
    obtain rfl := he.eq hf
    refine ⟨hheld.quieter hquieter (fun _ => rfl) (fun _ => rfl) fun _ => ?_, .inl⟩
    exact Or.imp id fun hcall => controlCall_setStopStage hcall rfl hc (by rw [hstage]; decide)
  · intro e' he'
    obtain ⟨f, hf, rfl⟩ := s.entry_update he'
    rcases hnext with rfl | rfl
    · simp [StopStaged]
    · trivial

theorem Inv.handlesClose (hstage : c.stage = .detach) :
    ((s.closeHandles c.id).setStopStage k .control).Inv := by
  have hopen : c.stage ≠ .done := by
    rw [hstage]
    decide
  have hstate : QuieterState s ((s.closeHandles c.id).setStopStage k .control) :=
    .update rfl fun e => ⟨rfl, rfl, rfl, id, fun _ => rfl, fun _ => rfl, id⟩
  have hdetached : ∀ {i e e'}, s.HasManager i e →
      ((s.closeHandles c.id).setStopStage k .control).HasManager i e' → e.config.id = c.id →
      s.Held i e → e'.broker = false ∧ e'.guest = false := by
    intro i e e' he he' hid hheld
    obtain ⟨f, hf, rfl⟩ := s.entry_update he'
    obtain rfl := he.eq hf
    by_cases hfound : s.managerVerser2Handles.get? c.id = some i
    · rw [if_pos (by simpa using hfound)]
      exact ⟨rfl, rfl⟩
    · rw [if_neg (by simpa using hfound)]
      exact hheld.handles_of_none (by rw [hid]; exact hfound)
  apply h.stopping hc hopen hstate rfl rfl rfl
  · refine update_foreign fun he hi => ?_
    obtain ⟨m, hm, hmid⟩ := h.handles (of_decide_eq_true hi)
    exact he.eq hm ▸ hmid
  · exact fun id => .inl rfl
  · exact delete_cases _ _
  · exact fun id => .inl rfl
  · intro i e e' he he' hid hheld
    obtain ⟨f, hf, hquieter⟩ := hstate.backward he'
    obtain rfl := he.eq hf
    have hclosed := hdetached he he' hid hheld
    refine ⟨hheld.quieter hquieter (fun hpeers => ?_) (fun _ => rfl) fun _ _ => ?_, .inl⟩
    · rw [hclosed.1, hclosed.2] at hpeers
      rcases hpeers with hfalse | hfalse <;> cases hfalse
    · exact .inr ⟨k, _, hasStop_setStopStage_self hc, hid.symm, rfl⟩
  · intro e' he'
    obtain ⟨⟨e, he, hid, -, hstaged⟩, -⟩ := h.stops hc hopen
    obtain ⟨f, hf, hquieter⟩ := hstate.backward he'
    obtain rfl := he.eq hf
    rw [hstage] at hstaged
    exact ⟨hquieter.stopped hstaged, hdetached he he' hid (h.held_manager hc hopen he hid)⟩

theorem Inv.noHandles (hstage : c.stage = .detach)
    (hnone : s.managerVerser2Handles.get? c.id = none) : (s.setStopStage k .remove).Inv := by
  have hopen : c.stage ≠ .done := by
    rw [hstage]
    decide
  have hstate : QuieterState s (s.setStopStage k .remove) := .refl rfl
  apply h.stopping hc hopen hstate rfl rfl rfl
  · exact fun he he' _ => (HasManager.eq he he').symm
  · exact fun id => .inl rfl
  · exact fun id => .inl rfl
  · exact fun id => .inl rfl
  · intro i e e' he he' hid hheld
    obtain rfl := he.eq he'
    refine ⟨hheld.quieter (.refl e) (fun _ => rfl) (fun _ => rfl) fun _ => ?_, .inl⟩
    exact Or.imp id fun hcall => controlCall_setStopStage hcall rfl hc (by rw [hstage]; decide)
  · intro e he
    obtain ⟨⟨e, hm, hid, -, hstaged⟩, -⟩ := h.stops hc hopen
    obtain rfl := hm.eq he
    rw [hstage] at hstaged
    have hheld := h.held_manager hc hopen hm hid
    have hclosed := hheld.handles_of_none (by rw [hid, hnone]; exact nofun)
    refine ⟨hstaged, hclosed.1, hclosed.2, ?_⟩
    by_contra hcontrol
    rcases hheld.control (by simpa using hcontrol) with hfound | ⟨l, d, hd, hdid, hdstage⟩
    · rw [hid, hnone] at hfound
      cases hfound
    · -- only this call goes on for the id
      have hl := h.stopsOnce hd hc (by rw [hdstage]; decide) hopen (hdid.trans hid)
      subst hl
      obtain rfl := Option.some.inj (hc.symm.trans hd)
      rw [hstage] at hdstage
      cases hdstage

theorem Inv.controlCloses (hstage : c.stage = .control) :
    ((s.closeControl c.id).setStopStage k .remove).Inv := by
  have hopen : c.stage ≠ .done := by
    rw [hstage]
    decide
  have hstate : QuieterState s ((s.closeControl c.id).setStopStage k .remove) :=
    .update rfl fun e => ⟨rfl, rfl, rfl, id, id, id, fun _ => rfl⟩
  have hdetached : ∀ {i e e'}, s.HasManager i e →
      ((s.closeControl c.id).setStopStage k .remove).HasManager i e' → e.config.id = c.id →
      s.Held i e → e'.control = false := by
    intro i e e' he he' hid hheld
    obtain ⟨f, hf, rfl⟩ := s.entry_update he'
    obtain rfl := he.eq hf
    by_cases hfound : s.controlIngressGuests.get? c.id = some i
    · rw [if_pos (by simpa using hfound)]
    · rw [if_neg (by simpa using hfound)]
      by_contra hcontrol
      have hfound' := hheld.guests (by simpa using hcontrol)
      rw [hid] at hfound'
      exact hfound hfound'
  apply h.stopping hc hopen hstate rfl rfl rfl
  · refine update_foreign fun he hi => ?_
    obtain ⟨m, hm, hmid⟩ := h.guests (of_decide_eq_true hi)
    exact he.eq hm ▸ hmid
  · exact fun id => .inl rfl
  · exact fun id => .inl rfl
  · exact delete_cases _ _
  · intro i e e' he he' hid hheld
    obtain ⟨f, hf, hquieter⟩ := hstate.backward he'
    obtain rfl := he.eq hf
    have hclosed := hdetached he he' hid hheld
    refine ⟨hheld.quieter hquieter (fun _ => rfl) (fun hcontrol => ?_) (fun hcontrol => ?_), .inl⟩ <;>
    · rw [hclosed] at hcontrol
      cases hcontrol
  · intro e' he'
    obtain ⟨⟨e, he, hid, -, hstaged⟩, -⟩ := h.stops hc hopen
    obtain ⟨f, hf, hquieter⟩ := hstate.backward he'
    obtain rfl := he.eq hf
    rw [hstage] at hstaged
    exact ⟨hquieter.stopped hstaged.1, hquieter.broker hstaged.2.1, hquieter.guest hstaged.2.2,
      hdetached he he' hid (h.held_manager hc hopen he hid)⟩

theorem Inv.removes (hstage : c.stage = .remove) :
    ({ s.setStopStage k .done with
      managersStore := s.managersStore.delete c.id } : MultiManagerState).Inv := by
  have hopen : c.stage ≠ .done := by
    rw [hstage]
    decide
  have hstate : QuieterState s { s.setStopStage k .done with
      managersStore := s.managersStore.delete c.id } := .refl rfl
  apply h.stopping hc hopen hstate rfl rfl rfl
  · exact fun he he' _ => (HasManager.eq he he').symm
  · exact delete_cases _ _
  · exact fun id => .inl rfl
  · exact fun id => .inl rfl
  · intro i e e' he he' hid hheld
    obtain rfl := he.eq he'
    refine ⟨hheld.quieter (.refl e) (fun _ => rfl) (fun _ => rfl) fun _ => ?_, fun hfound => .inr ?_⟩
    · exact Or.imp id fun hcall => controlCall_setStopStage hcall rfl hc (by rw [hstage]; decide)
    · -- the Manager of the store is the one that was stopped
      obtain ⟨⟨m, hm, -, -, hstaged⟩, -, honly⟩ := h.stops hc hopen
      rw [hid] at hfound
      obtain rfl := honly hfound
      obtain rfl := hm.eq he
      rw [hstage] at hstaged
      exact hstaged
  · exact fun _ => trivial

theorem Inv.stopManagerGoesOn (ok : Bool) : (s.stopManagerGoesOn k c ok).Inv := by
  unfold MultiManagerState.stopManagerGoesOn
  cases hstage : c.stage with
  | stop =>
    apply h.stopSettles hc hstage
    cases ok
    · exact .inr rfl
    · exact .inl rfl
  | detach =>
    dsimp only
    split
    · exact h.handlesClose hc hstage
    · next hnone =>
        apply h.noHandles hc hstage
        simpa [has] using hnone
  | control => exact h.controlCloses hc hstage
  | remove => exact h.removes hc hstage
  | done => exact h

end

end StopCalls

/-! ### Steps of a start -/

/-- One start goes on, and with it what is kept for its id. -/
structure StartStep (s s' : MultiManagerState) (m : ℕ) (e e' : ManagerEntry) : Prop where
  before : s.HasManager m e
  after : s'.HasManager m e'
  others : ∀ {i f}, i ≠ m → (s'.HasManager i f ↔ s.HasManager i f)
  progress : e.InProgress
  config : e'.config = e.config
  store : ∀ id, id ≠ e.config.id → s'.managersStore.get? id = s.managersStore.get? id
  handles : ∀ id, s'.managerVerser2Handles.get? id = s.managerVerser2Handles.get? id ∨
    id = e.config.id ∧ s'.managerVerser2Handles.get? id = some m
  guests : ∀ id, s'.controlIngressGuests.get? id = s.controlIngressGuests.get? id ∨
    id = e.config.id ∧ s'.controlIngressGuests.get? id = some m
  stopCalls : s'.stopCalls = s.stopCalls
  shutdown : s'.shutdown = s.shutdown
  verser2Host : s'.verser2Host = s.verser2Host

theorem Inv.notCalled (h : s.Inv) (he : s.HasManager m e) (hprogress : e.InProgress) :
    s.shutdown = .notCalled := by
  by_contra hcalled
  exact (h.quiet hcalled he).1 hprogress

theorem StartStep.cases (hstep : StartStep s s' m e e') {f : ManagerEntry}
    (hf : s'.HasManager i f) :
    i = m ∧ f = e' ∨ i ≠ m ∧ s.HasManager i f := by
  by_cases hi : i = m
  · subst hi
    exact .inl ⟨rfl, hf.eq hstep.after⟩
  · exact .inr ⟨hi, (hstep.others hi).mp hf⟩

theorem StartStep.exists (hstep : StartStep s s' m e e') {f : ManagerEntry} {id : String}
    (hf : s.HasManager i f) (hid : f.config.id = id) :
    ∃ f', s'.HasManager i f' ∧ f'.config.id = id := by
  by_cases hi : i = m
  · subst hi
    obtain rfl := hf.eq hstep.before
    exact ⟨e', hstep.after, by rw [hstep.config]; exact hid⟩
  · exact ⟨f, (hstep.others hi).mpr hf, hid⟩

theorem Inv.progress (h : s.Inv) (hstep : StartStep s s' m e e')
    (hstore : s'.managersStore.get? e.config.id = none ∨
      s'.managersStore.get? e.config.id = some m ∧ (e'.stage = .awaitMain ∨ e'.stage = .done))
    (hprogress : e'.InProgress → e.InProgress)
    (hstaged : s'.Staged m e')
    (hhost : e'.stage = .started ∨ e'.stage = .broker → s.verser2Host = true) : s'.Inv := by
  have hshutdown := h.notCalled hstep.before hstep.progress
  have hbefore : ∀ {j f}, s.HasManager j f → f.InProgress → f.config.id = e.config.id → j = m :=
    fun hf hfprogress hid => h.starts hf hstep.before hfprogress hstep.progress hid
  have hcall : ∀ {k c}, s'.HasStop k c → s.HasStop k c := fun hc => hc.of_eq hstep.stopCalls
  have hoff : ∀ {k c}, s.HasStop k c → c.stage ≠ .done → c.id ≠ e.config.id := by
    intro k c hc hopen hid
    exact (h.stops hc hopen).2.1 hstep.before hid.symm hstep.progress
  constructor
  case staged =>
    intro i f hf
    rcases hstep.cases hf with ⟨rfl, rfl⟩ | ⟨hi, hf⟩
    · exact hstaged
    · by_cases hid : f.config.id = e.config.id
      · -- another Manager of the id: its start is over and the store does not have it
        have hfprogress : ¬ f.InProgress := fun hfprogress => hi (hbefore hf hfprogress hid)
        have hnot : s.managersStore.get? f.config.id ≠ some i := by
          intro hfound
          rw [hid] at hfound
          rcases (h.staged hstep.before).store_of_inProgress hstep.progress with hnone | hsome
          · rw [hnone] at hfound
            cases hfound
          · rw [hsome] at hfound
            exact hi (Option.some.inj hfound).symm
        obtain ⟨hdetached, hstopped, hstage⟩ := (h.staged hf).quiet hfprogress hnot
        exact .of_quiet hdetached hstopped hstage
      · apply (h.staged hf).congr (hstep.store _ hid)
          ((hstep.handles _).resolve_right fun hnot => hid hnot.1)
          ((hstep.guests _).resolve_right fun hnot => hid hnot.1)
        exact fun k c hc hcid hstage => ⟨k, c, hc.of_eq hstep.stopCalls.symm, hcid, hstage⟩
  case starts =>
    intro i j f f' hf hf' hfprogress hfprogress' hid
    rcases hstep.cases hf with ⟨rfl, rfl⟩ | ⟨-, hf⟩ <;> rcases hstep.cases hf' with ⟨rfl, rfl⟩ | ⟨-, hf'⟩
    · rfl
    · rw [hstep.config] at hid
      exact (hbefore hf' hfprogress' hid.symm).symm
    · rw [hstep.config] at hid
      exact hbefore hf hfprogress hid
    · exact h.starts hf hf' hfprogress hfprogress' hid
  case store =>
    intro id i hi
    by_cases hid : id = e.config.id
    · subst hid
      rcases hstore with hnone | ⟨hsome, hstage⟩
      · rw [hnone] at hi
        cases hi
      · rw [hsome] at hi
        obtain rfl := Option.some.inj hi
        exact ⟨e', hstep.after, by rw [hstep.config], hstage⟩
    · rw [hstep.store id hid] at hi
      obtain ⟨f, hf, hfid, hstage⟩ := h.store hi
      have hne : i ≠ m := by
        rintro rfl
        obtain rfl := hf.eq hstep.before
        exact hid hfid.symm
      exact ⟨f, (hstep.others hne).mpr hf, hfid, hstage⟩
  case handles =>
    intro id i hi
    rcases hstep.handles id with heq | ⟨rfl, hsome⟩
    · obtain ⟨f, hf, hfid⟩ := h.handles (heq.symm.trans hi)
      exact hstep.exists hf hfid
    · obtain rfl := Option.some.inj (hsome.symm.trans hi)
      exact ⟨e', hstep.after, by rw [hstep.config]⟩
  case guests =>
    intro id i hi
    rcases hstep.guests id with heq | ⟨rfl, hsome⟩
    · obtain ⟨f, hf, hfid⟩ := h.guests (heq.symm.trans hi)
      exact hstep.exists hf hfid
    · obtain rfl := Option.some.inj (hsome.symm.trans hi)
      exact ⟨e', hstep.after, by rw [hstep.config]⟩
  case host =>
    intro _ i f hf hstage
    rw [hstep.verser2Host]
    rcases hstep.cases hf with ⟨rfl, rfl⟩ | ⟨-, hf⟩
    · exact hhost hstage
    · exact h.host hshutdown hf hstage
  case stops =>
    intro k c hc hopen
    have hc := hcall hc
    have hid := hoff hc hopen
    obtain ⟨⟨f, hf, hfid, hdone, hstop⟩, hothers, honly⟩ := h.stops hc hopen
    refine ⟨⟨f, ?_, hfid, hdone, hstop⟩, ?_, fun hi => honly ((hstep.store _ hid).symm.trans hi)⟩
    · have hne : c.manager ≠ m := by
        intro heq
        rw [heq] at hf
        obtain rfl := hf.eq hstep.before
        exact hid hfid.symm
      exact (hstep.others hne).mpr hf
    · intro i f hf hfid
      rcases hstep.cases hf with ⟨rfl, rfl⟩ | ⟨-, hf⟩
      · rw [hstep.config] at hfid
        exact absurd hfid.symm hid
      · exact hothers hf hfid
  case stopsOnce =>
    exact fun hc hd hopen hopen' hid => h.stopsOnce (hcall hc) (hcall hd) hopen hopen' hid
  case quiet =>
    intro hcalled
    exact absurd (hstep.shutdown.trans hshutdown) hcalled
  case detached =>
    intro hlate
    rw [hstep.shutdown, hshutdown] at hlate
    exact absurd List.mem_cons_self hlate
  case leaving =>
    intro listed left hleaving
    rw [hstep.shutdown, hshutdown] at hleaving
    cases hleaving
  case stopped =>
    intro hlate
    rw [hstep.shutdown, hshutdown] at hlate
    exact absurd hlate (by simp)

theorem StartStep.update {f : ManagerEntry → ManagerEntry} (he : s.HasManager m e)
    (hprogress : e.InProgress) (hmanagers : s'.managers = (s.update (· = m) f).managers)
    (hconfig : (f e).config = e.config)
    (hstore : ∀ id, id ≠ e.config.id → s'.managersStore.get? id = s.managersStore.get? id)
    (hhandles : ∀ id, s'.managerVerser2Handles.get? id = s.managerVerser2Handles.get? id ∨
      id = e.config.id ∧ s'.managerVerser2Handles.get? id = some m)
    (hguests : ∀ id, s'.controlIngressGuests.get? id = s.controlIngressGuests.get? id ∨
      id = e.config.id ∧ s'.controlIngressGuests.get? id = some m)
    (hcalls : s'.stopCalls = s.stopCalls) (hshutdown : s'.shutdown = s.shutdown)
    (hhost : s'.verser2Host = s.verser2Host) : StartStep s s' m e (f e) where
  before := he
  after := by
    rw [HasManager, hmanagers, getElem?_update, show s.managers[m]? = some e from he]
    simp
  others := by
    intro i g hi
    rw [HasManager, hmanagers, getElem?_update, HasManager]
    simp [hi]
  progress := hprogress
  config := hconfig
  store := hstore
  handles := hhandles
  guests := hguests
  stopCalls := hcalls
  shutdown := hshutdown
  verser2Host := hhost

theorem attachStage_cases (config : ManagerConfiguration) :
    s.attachStage config = .started ∧ s.verser2Host = true ∨ s.attachStage config = .add := by
  unfold attachStage
  split
  · next hattached =>
      rw [Bool.and_eq_true] at hattached
      exact .inl ⟨rfl, hattached.1⟩
  · exact .inr rfl

theorem Inv.store_of_inProgress (h : s.Inv) (he : s.HasManager m e) (hprogress : e.InProgress) :
    s.managersStore.get? e.config.id = none ∨
      s.managersStore.get? e.config.id = some m ∧ e.stage = .awaitMain := by
  refine ((h.staged he).store_of_inProgress hprogress).imp id fun hsome => ⟨hsome, ?_⟩
  obtain ⟨f, hf, -, hstage⟩ := h.store hsome
  obtain rfl := he.eq hf
  exact hstage.resolve_right hprogress.1

theorem Staged.running (h : s.Staged i e) (hrunning : e.main = .running) :
    e.Detached ∧
      ((e.stage = .main ∨ e.stage = .started ∨ e.stage = .add ∧ e.initial = true) ∧ s.Absent e ∨
        e.stage = .awaitMain ∧ s.managersStore.get? e.config.id = some i) := by
  have hresolved : e.main ≠ .resolved := by
    rw [hrunning]
    decide
  have hrejected : e.main ≠ .rejected := by
    rw [hrunning]
    decide
  unfold Staged at h
  cases hstage : e.stage <;> rw [hstage] at h
  case main => exact ⟨h.2.1, .inl ⟨.inl rfl, h.2.2⟩⟩
  case started => exact ⟨h.1, .inl ⟨.inr (.inl rfl), h.2 hrejected⟩⟩
  case broker => exact absurd h.1 hresolved
  case guest => exact absurd h.1 hresolved
  case control => exact absurd h.1 hresolved
  case undo => exact absurd h id
  case add => exact ⟨(h.1 hresolved).1, .inl ⟨.inr (.inr ⟨rfl, (h.1 hresolved).2⟩), h.2.2⟩⟩
  case awaitMain => exact ⟨h.1 hresolved, .inr ⟨rfl, h.2.2⟩⟩
  case done => exact absurd hrunning h.1

theorem Staged.of_started (hstage : e.stage = .started) (hdetached : e.Detached)
    (habsent : e.main ≠ .rejected → s.Absent e) : s.Staged i e := by
  unfold Staged
  rw [hstage]
  exact ⟨hdetached, habsent⟩

theorem Staged.of_add (hstage : e.stage = .add)
    (hmain : e.main ≠ .resolved → e.Detached ∧ e.initial = true) (hheld : s.Held i e)
    (habsent : s.Absent e) : s.Staged i e := by
  unfold Staged
  rw [hstage]
  exact ⟨hmain, hheld, habsent⟩

theorem Staged.of_awaitMain (hstage : e.stage = .awaitMain)
    (hmain : e.main ≠ .resolved → e.Detached) (hheld : s.Held i e)
    (hstore : s.managersStore.get? e.config.id = some i) : s.Staged i e := by
  unfold Staged
  rw [hstage]
  exact ⟨hmain, hheld, hstore⟩

theorem Staged.of_done (hstage : e.stage = .done) (hrunning : e.main ≠ .running)
    (hmain : e.main = .rejected → e.Detached) (hheld : s.Held i e)
    (hkept : e.main = .resolved →
      s.managersStore.get? e.config.id = some i ∨ e.stopped = true ∧ e.Detached) : s.Staged i e := by
  unfold Staged
  rw [hstage]
  exact ⟨hrunning, hmain, hheld, hkept⟩

theorem Staged.inProgress_of_running (h : s.Staged i e) (hrunning : e.main = .running) :
    e.InProgress := by
  refine ⟨fun hdone => ?_, fun hhung => ?_⟩
  · rcases (h.running hrunning).2 with ⟨hstage | hstage | ⟨hstage, -⟩, -⟩ | ⟨hstage, -⟩ <;>
    · rw [hdone] at hstage
      cases hstage
  · have hrejected := hhung.2
    rw [hrunning] at hrejected
    cases hrejected

section

variable (h : s.Inv) (he : s.HasManager m e)
include h he

theorem Inv.mainEnds {main : MainState} {first : ManagerEntry → StartStage}
    (hrunning : e.main = .running)
    (hfirst : ∀ {s' : MultiManagerState}, e.Detached → s'.Absent e →
      s'.Staged m { e with main, stage := first e })
    (hhost : first e = .started ∨ first e = .broker → s.verser2Host = true) :
    (s.update (· = m) fun e => { e with
      main, stage := if e.stage = .main then first e else e.stage }).Inv := by
  have hstaged := h.staged he
  have hprogress := hstaged.inProgress_of_running hrunning
  refine h.progress (.update he hprogress rfl rfl (fun _ _ => rfl) (fun _ => .inl rfl)
    (fun _ => .inl rfl) rfl rfl rfl)
    ((h.store_of_inProgress he hprogress).imp id fun hsome => ⟨hsome.1, .inl ?_⟩)
    (fun _ => hprogress) ?_ ?_
  · exact (if_neg (by rw [hsome.2]; decide)).trans hsome.2
  · obtain ⟨hdetached, ⟨hstage | hstage | ⟨hstage, hinitial⟩, habsent⟩ | ⟨hstage, hstore⟩⟩ :=
      hstaged.running hrunning
    · rw [if_pos hstage]
      exact hfirst hdetached habsent
    · exact .of_started ((if_neg (by rw [hstage]; decide)).trans hstage) hdetached fun _ => habsent
    · exact .of_add ((if_neg (by rw [hstage]; decide)).trans hstage) (fun _ => ⟨hdetached, hinitial⟩)
        (.of_detached hdetached) habsent
    · exact .of_awaitMain ((if_neg (by rw [hstage]; decide)).trans hstage) (fun _ => hdetached)
        (.of_detached hdetached) hstore
  · intro hstage
    dsimp only at hstage
    split at hstage
    · exact hhost hstage
    · exact h.host (h.notCalled he hprogress) he hstage

theorem Inv.mainResolves (hrunning : e.main = .running) :
    (s.update (· = m) fun e => { e with
      main := .resolved
      stage := if e.stage = .main then s.attachStage e.config else e.stage }).Inv := by
  rcases s.attachStage_cases e.config with ⟨hattach, hhost⟩ | hattach
  · exact h.mainEnds he hrunning
      (fun hdetached habsent => .of_started hattach hdetached fun _ => habsent)
      fun _ => hhost
  · refine h.mainEnds he hrunning (fun hdetached habsent => .of_add hattach
      (fun hnot => absurd rfl hnot) (.of_detached hdetached) habsent) ?_
    rw [hattach]
    rintro (hstage | hstage) <;> cases hstage

theorem Inv.mainRejects (hrunning : e.main = .running) :
    (s.update (· = m) fun e => { e with
      main := .rejected, stage := if e.stage = .main then .done else e.stage }).Inv := by
  refine h.mainEnds he hrunning (fun hdetached _ =>
    .of_done rfl nofun (fun _ => hdetached) (.of_detached hdetached) nofun) ?_
  rintro (hstage | hstage) <;> cases hstage

theorem Inv.mainSettles (ok : Bool) : (s.mainSettles m e ok).Inv := by
  unfold MultiManagerState.mainSettles
  by_cases hrunning : e.main = .running
  case neg =>
    rw [if_pos hrunning]
    exact h
  rw [if_neg (not_not.mpr hrunning)]
  cases ok with
  | true => exact h.mainResolves he hrunning
  | false => exact h.mainRejects he hrunning

theorem Inv.peerSettles {ok : Bool}
    (hok : e.stage ∈ [.broker, .guest, .control] → ok = true) : (s.peerSettles m e ok).Inv := by
  unfold MultiManagerState.peerSettles
  have hstaged := h.staged he
  unfold Staged at hstaged
  have hstore : ∀ {stage : StartStage}, e.stage = stage → stage ≠ .awaitMain → e.InProgress →
      s.managersStore.get? e.config.id = none := by
    intro stage hstage hne hprogress
    refine (h.store_of_inProgress he hprogress).resolve_right fun hsome => hne ?_
    rw [← hstage, hsome.2]
  cases hstage : e.stage <;> rw [hstage] at hstaged <;> try exact h
  case broker =>
    obtain rfl := hok (by rw [hstage]; decide)
    have hprogress := inProgress_of_stage hstage nofun nofun
    have hhost := h.host (h.notCalled he hprogress) he (.inr hstage)
    rw [if_pos (by rw [hhost]; rfl)]
    refine h.progress (.update he hprogress rfl rfl (fun _ _ => rfl) (fun _ => .inl rfl)
      (fun _ => .inl rfl) rfl rfl rfl) (.inl (hstore hstage (by decide) hprogress))
      (fun _ => hprogress) ?_ ?_
    · exact ⟨hstaged.1, hstaged.2.1.2.1, hstaged.2.1.2.2, hstaged.2.2⟩
    · rintro (hnot | hnot) <;> cases hnot
  case guest =>
    obtain rfl := hok (by rw [hstage]; decide)
    have hprogress := inProgress_of_stage hstage nofun nofun
    rw [if_pos rfl]
    have hheld : ∀ stage, ({ s.update (· = m) fun e => { e with
          guest := true
          stage := if s.controlIngressHost && e.config.verser2.controlIngress then .control else .add } with
        managerVerser2Handles := s.managerVerser2Handles.set e.config.id m } : MultiManagerState).Held m
        { e with guest := true, stage := stage } := by
      intro stage
      refine ⟨fun _ => get?_set_self _ _ _, fun hcontrol => ?_, fun hcontrol => ?_⟩ <;>
      · rw [show e.control = true from hcontrol] at hstaged
        cases hstaged.2.2.1
    refine h.progress (.update he hprogress rfl rfl (fun _ _ => rfl) (fun id => ?_)
      (fun _ => .inl rfl) rfl rfl rfl) (.inl (hstore hstage (by decide) hprogress))
      (fun _ => hprogress) ?_ ?_
    · exact set_cases _ _ _ _
    · by_cases hingress : (s.controlIngressHost && e.config.verser2.controlIngress) = true
      · unfold Staged
        rw [if_pos hingress]
        exact ⟨hstaged.1, rfl, hstaged.2.2.1, hheld _, hstaged.2.2.2⟩
      · rw [if_neg hingress]
        exact .of_add rfl (fun hnot => absurd hstaged.1 hnot) (hheld _) hstaged.2.2.2
    · rintro (hnot | hnot) <;>
      · dsimp only at hnot
        split at hnot <;> cases hnot
  case control =>
    obtain rfl := hok (by rw [hstage]; decide)
    have hprogress := inProgress_of_stage hstage nofun nofun
    rw [if_pos rfl]
    refine h.progress (.update he hprogress rfl rfl (fun _ _ => rfl) (fun _ => .inl rfl)
      (fun id => ?_) rfl rfl rfl) (.inl (hstore hstage (by decide) hprogress))
      (fun _ => hprogress) ?_ ?_
    · exact set_cases _ _ _ _
    · have hhandles := hstaged.2.2.2.1.handles
      exact .of_add rfl (fun hnot => absurd hstaged.1 hnot)
        ⟨hhandles, fun _ => get?_set_self _ _ _, fun _ => .inl (hhandles (.inr hstaged.2.1))⟩
        hstaged.2.2.2.2
    · rintro (hnot | hnot) <;> cases hnot

theorem Inv.awaitFails (hstage : e.stage = .awaitMain)
    (hmain : e.main = .rejected) : (s.failStart m e).Inv := by
  have hprogress := inProgress_of_stage hstage nofun nofun
  have hstaged := h.staged he
  unfold Staged at hstaged
  rw [hstage] at hstaged
  have hdetached : e.Detached := hstaged.1 (by rw [hmain]; decide)
  have hdone : ∀ {s' : MultiManagerState}, s'.Staged m { e with stage := .done } := by
    intro s'
    refine .of_done rfl ?_ (fun _ => hdetached) (.of_detached hdetached) fun hresolved => ?_
    · rw [show ({ e with stage := .done } : ManagerEntry).main = e.main from rfl, hmain]
      decide
    · rw [show ({ e with stage := .done } : ManagerEntry).main = e.main from rfl, hmain] at hresolved
      cases hresolved
  have hhost : ∀ {P : Prop}, StartStage.done = .started ∨ StartStage.done = .broker → P := by
    rintro P (hnot | hnot) <;> cases hnot
  unfold failStart
  by_cases hinitial : e.initial = true
  · rw [if_pos hinitial]
    exact h.progress (.update he hprogress rfl rfl (fun _ hne => get?_delete_of_ne _ hne.symm)
      (fun _ => .inl rfl) (fun _ => .inl rfl) rfl rfl rfl) (.inl (get?_delete_self _ _))
      (fun hnot => absurd rfl hnot.1) hdone hhost
  · rw [if_neg hinitial]
    exact h.progress (.update he hprogress rfl rfl (fun _ _ => rfl) (fun _ => .inl rfl)
      (fun _ => .inl rfl) rfl rfl rfl) (.inr ⟨hstaged.2.2, .inr rfl⟩)
      (fun hnot => absurd rfl hnot.1) hdone hhost

theorem Inv.startGoesOn : (s.startGoesOn m e).Inv := by
  unfold MultiManagerState.startGoesOn
  have hstaged := h.staged he
  unfold Staged at hstaged
  cases hstage : e.stage <;> rw [hstage] at hstaged <;> try exact h
  case started =>
    dsimp only
    by_cases hmain : e.main = .resolved
    case neg =>
      rw [if_pos hmain]
      exact h
    have hprogress : e.InProgress := by
      refine ⟨by rw [hstage]; decide, ?_⟩
      rintro ⟨-, hrejected⟩
      rw [hmain] at hrejected
      cases hrejected
    have habsent := hstaged.2 (by rw [hmain]; decide)
    have hhost := h.host (h.notCalled he hprogress) he (.inl hstage)
    rw [if_neg (not_not.mpr hmain), if_pos hhost]
    exact h.progress (.update he hprogress rfl rfl (fun _ _ => rfl) (fun _ => .inl rfl)
      (fun _ => .inl rfl) rfl rfl rfl) (.inl habsent.2) (fun _ => hprogress)
      ⟨hmain, hstaged.1, habsent⟩ fun _ => hhost
  case undo => exact absurd hstaged id
  case add =>
    have hprogress := inProgress_of_stage hstage nofun nofun
    have hheld := hstaged.2.1
    have hset : (s.managersStore.set e.config.id m).get? e.config.id = some m :=
      get?_set_self _ _ _
    refine h.progress (.update he hprogress rfl rfl
      (fun _ hne => get?_set_of_ne _ hne.symm _) (fun _ => .inl rfl) (fun _ => .inl rfl)
      rfl rfl rfl) (.inr ⟨hset, ?_⟩) (fun _ => hprogress) ?_ ?_
    · dsimp only
      cases e.initial
      · exact .inr rfl
      · exact .inl rfl
    · cases hinitial : e.initial with
      | true =>
        exact .of_awaitMain rfl (fun hmain => (hstaged.1 hmain).1)
          ⟨hheld.handles, hheld.guests, hheld.control⟩ hset
      | false =>
        -- a requested Manager is added once its main has resolved
        have hmain : e.main = .resolved := by
          by_contra hmain
          have htrue := (hstaged.1 hmain).2
          rw [hinitial] at htrue
          cases htrue
        refine .of_done rfl (fun hnot => ?_) (fun hnot => ?_)
          ⟨hheld.handles, hheld.guests, hheld.control⟩ fun _ => .inl hset <;>
        · rw [show e.main = _ from hnot] at hmain
          cases hmain
    · intro hnot
      dsimp only at hnot
      cases hinitial : e.initial <;> rw [hinitial] at hnot <;> rcases hnot with hnot | hnot <;>
        cases hnot
  case awaitMain =>
    dsimp only
    cases hmain : e.main with
    | running => exact h
    | rejected => exact h.awaitFails he hstage hmain
    | resolved =>
      have hprogress := inProgress_of_stage hstage nofun nofun
      have hheld := hstaged.2.1
      refine h.progress (.update he hprogress rfl rfl (fun _ _ => rfl) (fun _ => .inl rfl)
        (fun _ => .inl rfl) rfl rfl rfl) (.inr ⟨hstaged.2.2, .inr rfl⟩)
        (fun hnot => absurd rfl hnot.1) ?_ ?_
      · refine .of_done rfl (fun hnot => ?_) (fun hnot => ?_)
          ⟨hheld.handles, hheld.guests, hheld.control⟩ fun _ => .inl hstaged.2.2 <;>
        · rw [show e.main = _ from hnot] at hmain
          cases hmain
      · rintro (hnot | hnot) <;> cases hnot

end

/-! ### New starts and new calls of `stopManager` -/

theorem hasManager_create {config : ManagerConfiguration} {initial : Bool} {f : ManagerEntry}
    (hf : (s.create config initial).HasManager i f) :
    s.HasManager i f ∨ i = s.managers.length ∧
      f = { config, initial, stage := if initial then s.attachStage config else .main,
            main := .running, stopped := false, broker := false, guest := false, control := false } :=
  (getElem?_append_cases hf).symm.imp_left And.right

theorem hasManager_create_of_old {config : ManagerConfiguration} {initial : Bool}
    (he : s.HasManager i e) : (s.create config initial).HasManager i e :=
  getElem?_append_of_some he

theorem Inv.create (h : s.Inv) {config : ManagerConfiguration} (hfree : s.Free config.id)
    (hstore : s.managersStore.has config.id = false) (initial : Bool) :
    (s.create config initial).Inv := by
  have hnone : s.managersStore.get? config.id = none := by simpa [has] using hstore
  have hstarts : ∀ {i f}, (s.create config initial).HasManager i f → f.InProgress →
      f.config.id = config.id → i = s.managers.length := by
    intro i f hf hprogress hid
    rcases hasManager_create hf with hf | ⟨hi, -⟩
    · exact absurd hprogress (hfree.starts hf hid)
    · exact hi
  constructor
  case staged =>
    intro i f hf
    rcases hasManager_create hf with hf | ⟨-, rfl⟩
    · exact (h.staged hf).congr rfl rfl rfl fun k c hc hid hstage => ⟨k, c, hc, hid, hstage⟩
    · have hdetached : ∀ stage, (ManagerEntry.mk config initial stage .running false false false
          false).Detached := fun _ => ⟨rfl, rfl, rfl⟩
      cases initial with
      | false => exact ⟨rfl, hdetached _, rfl, hnone⟩
      | true =>
        rcases s.attachStage_cases config with ⟨hattach, -⟩ | hattach
        · exact .of_started hattach (hdetached _) fun _ => ⟨rfl, hnone⟩
        · exact .of_add hattach (fun _ => ⟨hdetached _, rfl⟩) (.of_detached (hdetached _)) ⟨rfl, hnone⟩
  case starts =>
    intro i j f f' hf hf' hprogress hprogress' hid
    rcases hasManager_create hf with hold | ⟨rfl, rfl⟩
    · rcases hasManager_create hf' with hold' | ⟨rfl, rfl⟩
      · exact h.starts hold hold' hprogress hprogress' hid
      · exact hstarts hf hprogress hid
    · exact (hstarts hf' hprogress' hid.symm).symm
  case store =>
    intro id i hi
    obtain ⟨f, hf, hrest⟩ := h.store hi
    exact ⟨f, hasManager_create_of_old hf, hrest⟩
  case handles =>
    intro id i hi
    obtain ⟨f, hf, hrest⟩ := h.handles hi
    exact ⟨f, hasManager_create_of_old hf, hrest⟩
  case guests =>
    intro id i hi
    obtain ⟨f, hf, hrest⟩ := h.guests hi
    exact ⟨f, hasManager_create_of_old hf, hrest⟩
  case host =>
    intro hshutdown i f hf hstage
    rcases hasManager_create hf with hf | ⟨-, rfl⟩
    · exact h.host hshutdown hf hstage
    · dsimp only at hstage
      split at hstage
      · rcases s.attachStage_cases config with ⟨-, hhost⟩ | hattach
        · exact hhost
        · rw [hattach] at hstage
          rcases hstage with hstage | hstage <;> cases hstage
      · rcases hstage with hstage | hstage <;> cases hstage
  case stops =>
    intro k c hc hopen
    obtain ⟨⟨f, hf, hrest⟩, hothers, honly⟩ := h.stops hc hopen
    refine ⟨⟨f, hasManager_create_of_old hf, hrest⟩, ?_, honly⟩
    intro i f hf hid
    rcases hasManager_create hf with hf | ⟨-, rfl⟩
    · exact hothers hf hid
    · exact absurd (hfree.stops hc hid.symm) hopen
  case stopsOnce => exact h.stopsOnce
  case quiet => exact fun hcalled => absurd hfree.shutdown hcalled
  case detached =>
    intro hlate
    rw [show (s.create config initial).shutdown = _ from hfree.shutdown] at hlate
    exact absurd List.mem_cons_self hlate
  case leaving =>
    intro listed left hleaving
    rw [show (s.create config initial).shutdown = _ from hfree.shutdown] at hleaving
    cases hleaving
  case stopped =>
    intro hlate
    rw [show (s.create config initial).shutdown = _ from hfree.shutdown] at hlate
    exact absurd hlate (by simp)

theorem Inv.stopManager (h : s.Inv) {id : String} (hcareful : s.managersStore.has id = true →
      (∀ {i e}, s.HasManager i e → e.config.id = id → ¬ e.InProgress) ∧
        ∀ {k c}, s.HasStop k c → c.id = id → c.stage = .done) : (s.stopManager id).Inv := by
  unfold MultiManagerState.stopManager
  split
  · exact h
  next m hm =>
  obtain ⟨hstarts, hstops⟩ := hcareful (has_iff.mpr ⟨m, hm⟩)
  have hcases : ∀ {k c}, ({ s with stopCalls := s.stopCalls ++ [⟨id, m, .stop⟩] } :
      MultiManagerState).HasStop k c →
      s.HasStop k c ∨ k = s.stopCalls.length ∧ c = ⟨id, m, .stop⟩ := by
    intro k c hc
    exact (getElem?_append_cases hc).symm.imp_left And.right
  refine { h with staged := ?_, stops := ?_, stopsOnce := ?_ }
  · intro i f hf
    refine (h.staged hf).congr rfl rfl rfl fun k c hc hid hstage =>
      ⟨k, c, getElem?_append_of_some hc, hid, hstage⟩
  · intro k c hc hopen
    rcases hcases hc with hc | ⟨-, rfl⟩
    · exact h.stops hc hopen
    · obtain ⟨e, he, hid, hstage⟩ := h.store hm
      refine ⟨⟨e, he, hid, hstage.resolve_left fun hawait => ?_, trivial⟩, fun hf hfid => hstarts hf hfid,
        fun hi => Option.some.inj (hi.symm.trans hm)⟩
      exact hstarts he hid (inProgress_of_stage hawait nofun nofun)
  · intro k l c d hc hd hopen hopen' hid
    rcases hcases hc with hc | ⟨rfl, rfl⟩
    · rcases hcases hd with hd | ⟨rfl, rfl⟩
      · exact h.stopsOnce hc hd hopen hopen' hid
      · exact absurd (hstops hc hid) hopen
    · rcases hcases hd with hd | ⟨rfl, -⟩
      · exact absurd (hstops hd hid.symm) hopen'
      · rfl

/-! ### Steps of `stop` -/

section

variable (h : s.Inv)
include h

theorem Inv.staged_quieter (hstate : QuieterState s s')
    (hquiet : ∀ {i e}, s.HasManager i e → ¬ e.InProgress)
    (hhandles : ∀ {i e'}, s'.HasManager i e' → e'.broker = true ∨ e'.guest = true →
      s'.managerVerser2Handles = s.managerVerser2Handles)
    (hcontrol : ∀ {i e'}, s'.HasManager i e' → e'.control = false)
    (hkept : ∀ {i e e'}, s.HasManager i e → s'.HasManager i e' → e.main = .resolved →
      s.managersStore.get? e.config.id = some i →
      s'.managersStore.get? e.config.id = some i ∨ e'.stopped = true ∧ e'.Detached)
    {e' : ManagerEntry} (he' : s'.HasManager i e') : s'.Staged i e' := by
  obtain ⟨e, he, hquieter⟩ := hstate.backward he'
  have hstaged := h.staged he
  refine hstaged.quieter (hquiet he) hquieter ?_ fun hmain hbefore => ?_
  · have hheld := hstaged.held (hquiet he)
    refine hheld.quieter hquieter (fun hpeers => by rw [hhandles he' hpeers]) ?_ ?_ <;>
    · intro htrue
      rw [hcontrol he'] at htrue
      cases htrue
  · rcases hbefore with hfound | ⟨hstopped, hdetached⟩
    · exact hkept he he' hmain hfound
    · exact .inr ⟨hquieter.stopped hstopped, hquieter.detached hdetached⟩

theorem Inv.stopStaged_quieter (hstate : QuieterState s s')
    (hcalls : s'.stopCalls = s.stopCalls) {k : ℕ} {c : StopCall} (hc : s'.HasStop k c)
    (hopen : c.stage ≠ .done) : ∃ d, s.HasStop k d ∧ d.stage ≠ .done ∧ d.id = c.id ∧
      d.manager = c.manager ∧ ∀ {e'}, s'.HasManager d.manager e' → StopStaged e' c.stage := by
  have hc := hc.of_eq hcalls
  refine ⟨c, hc, hopen, rfl, rfl, fun {e'} he' => ?_⟩
  obtain ⟨⟨e, he, -, -, hstaged⟩, -⟩ := h.stops hc hopen
  obtain ⟨f, hf, hquieter⟩ := hstate.backward he'
  obtain rfl := he.eq hf
  exact hquieter.stopStaged hstaged

theorem Inv.stopStep (hcalled : s.shutdown ≠ .notCalled) (hstate : QuieterState s s')
    (hcalls : s'.stopCalls = s.stopCalls) (hlater : s'.shutdown ≠ .notCalled)
    (hstore : ∀ {id i}, s'.managersStore.get? id = some i → s.managersStore.get? id = some i)
    (hhandles : s'.managerVerser2Handles = s.managerVerser2Handles ∨
      s'.managerVerser2Handles = .empty ∧ ∀ {i e'}, s'.HasManager i e' → e'.Detached)
    (hguests : s'.controlIngressGuests = s.controlIngressGuests)
    (hkept : ∀ {i e e'}, s.HasManager i e → s'.HasManager i e' → e.main = .resolved →
      s.managersStore.get? e.config.id = some i →
      s'.managersStore.get? e.config.id = some i ∨ e'.stopped = true ∧ e'.Detached)
    (hdetached : s'.shutdown ∉ [.notCalled, .guests, .controlHost, .failed] →
      ∀ {i e}, s'.HasManager i e → e.Detached)
    (hleaving : ∀ {listed left}, s'.shutdown = .managers listed left →
      ∀ {i e}, s'.HasManager i e → e.Live → i ∈ left)
    (hstopped : s'.shutdown ∈ [.server, .completed] → ∀ {i e}, s'.HasManager i e → ¬ e.Live) :
    s'.Inv := by
  have hquiet' : ∀ {i e'}, s'.HasManager i e' → ¬ e'.InProgress ∧ e'.control = false := by
    intro i e' he'
    obtain ⟨e, he, hquieter⟩ := hstate.backward he'
    obtain ⟨hprogress, hcontrol⟩ := h.quiet hcalled he
    exact ⟨fun hprogress' => hprogress (hquieter.inProgress.mp hprogress'), hquieter.control hcontrol⟩
  refine h.quieter hstate ?_ hstore ?_ (fun hi => by rw [← hguests]; exact hi)
    (fun hc hopen => h.stopStaged_quieter hstate hcalls hc hopen) (fun hnot => absurd hnot hlater)
    (fun _ => hquiet') hdetached hleaving hstopped
  · intro i e' he'
    refine h.staged_quieter hstate (fun he => (h.quiet hcalled he).1) ?_
      (fun he => (hquiet' he).2) hkept he'
    intro j f hf hpeers
    refine hhandles.resolve_right fun hnot => ?_
    rw [(hnot.2 hf).1, (hnot.2 hf).2.1] at hpeers
    rcases hpeers with hfalse | hfalse <;> cases hfalse
  · intro id i hi
    rcases hhandles with heq | ⟨hempty, -⟩
    · rw [← heq]
      exact hi
    · rw [hempty] at hi
      cases hi

theorem Inv.stop (hcareful : s.shutdown = .notCalled → ∀ {i e}, s.HasManager i e → ¬ e.InProgress) :
    s.stop.Inv := by
  unfold MultiManagerState.stop
  cases hshutdown : s.shutdown <;> try exact h
  have hquiet : ∀ {i e}, s.HasManager i e → ¬ e.InProgress := fun he => hcareful hshutdown he
  set s' : MultiManagerState := { s.update (fun i => s.controlIngressGuests.values.contains i)
      (fun e => { e with control := false }) with
    controlIngressGuests := .empty
    shutdown := .guests } with hs'
  have hstate : QuieterState s s' := .update rfl fun e => ⟨rfl, rfl, rfl, id, id, id, fun _ => rfl⟩
  have hcontrol : ∀ {i e'}, s'.HasManager i e' → e'.control = false := by
    intro i e' he'
    obtain ⟨e, he, rfl⟩ := s.entry_update he'
    split
    · rfl
    · next hnot =>
        -- the guest of the Manager is found by its id
        by_contra htrue
        have hheld := (h.staged he).held (hquiet he)
        have hfound := hheld.guests (by simpa using htrue)
        apply hnot
        simpa using mem_values_iff.mpr ⟨_, hfound⟩
  refine h.quieter hstate ?_ (fun hi => hi) (fun hi => hi) nofun
    (fun hc hopen => h.stopStaged_quieter hstate rfl hc hopen) nofun ?_ ?_ ?_ ?_
  · exact h.staged_quieter hstate hquiet (fun _ _ => rfl) hcontrol fun _ _ _ hfound => .inl hfound
  · intro _ i e' he'
    obtain ⟨e, he, hquieter⟩ := hstate.backward he'
    exact ⟨fun hprogress => hquiet he (hquieter.inProgress.mp hprogress), hcontrol he'⟩
  · exact fun hnot => absurd (by simp [hs']) hnot
  · exact nofun
  · exact fun hnot => absurd hnot (by simp [hs'])

theorem Inv.stopStep_same (hcalled : s.shutdown ≠ .notCalled)
    (hmanagers : s'.managers = s.managers) (hstore : s'.managersStore = s.managersStore)
    (hhandles : s'.managerVerser2Handles = s.managerVerser2Handles)
    (hguests : s'.controlIngressGuests = s.controlIngressGuests)
    (hcalls : s'.stopCalls = s.stopCalls) (hlater : s'.shutdown ≠ .notCalled)
    (hdetached : s'.shutdown ∉ [.notCalled, .guests, .controlHost, .failed] →
      s.shutdown ∉ [.notCalled, .guests, .controlHost, .failed])
    (hleaving : ∀ {listed left}, s'.shutdown = .managers listed left →
      ∀ {i e}, s.HasManager i e → e.Live → i ∈ left)
    (hstopped : s'.shutdown ∈ [.server, .completed] → s.shutdown ∈ [.server, .completed]) :
    s'.Inv := by
  have hback : ∀ {i e}, s'.HasManager i e → s.HasManager i e := by
    intro i e he
    unfold HasManager at *
    rw [← hmanagers]
    exact he
  refine h.stopStep hcalled (.refl hmanagers) hcalls hlater (fun hi => by rw [← hstore]; exact hi)
    (.inl hhandles) hguests (fun _ _ _ hfound => .inl (by rw [hstore]; exact hfound)) ?_ ?_ ?_
  · exact fun hlate _ _ he => h.detached (hdetached hlate) (hback he)
  · exact fun hleft _ _ he hlive => hleaving hleft (hback he) hlive
  · exact fun hlate _ _ he => h.stopped (hstopped hlate) (hback he)

theorem Inv.handlesCleared (hshutdown : s.shutdown = .controlHost) :
    ({ s.update (fun i => s.managerVerser2Handles.values.contains i)
        (fun e => { e with broker := false, guest := false }) with
      managerVerser2Handles := .empty
      shutdown := .handles } : MultiManagerState).Inv := by
  have hcalled : s.shutdown ≠ .notCalled := by
    rw [hshutdown]
    exact nofun
  set s' : MultiManagerState := { s.update (fun i => s.managerVerser2Handles.values.contains i)
      (fun e => { e with broker := false, guest := false }) with
    managerVerser2Handles := .empty
    shutdown := .handles } with hs'
  have hstate : QuieterState s s' := .update rfl fun e => ⟨rfl, rfl, rfl, id, fun _ => rfl, fun _ => rfl, id⟩
  have hdetached : ∀ {i e'}, s'.HasManager i e' → e'.Detached := by
    intro i e' he'
    obtain ⟨e, he, rfl⟩ := s.entry_update he'
    obtain ⟨hprogress, hcontrol⟩ := h.quiet hcalled he
    split
    · exact ⟨rfl, rfl, hcontrol⟩
    · next hnot =>
        have hnone : s.managerVerser2Handles.get? e.config.id ≠ some i := by
          intro hfound
          apply hnot
          simpa using mem_values_iff.mpr ⟨_, hfound⟩
        have hclosed := ((h.staged he).held hprogress).handles_of_none hnone
        exact ⟨hclosed.1, hclosed.2, hcontrol⟩
  refine h.stopStep hcalled hstate rfl nofun (fun hi => hi)
    (.inr ⟨rfl, hdetached⟩) rfl (fun _ _ _ hfound => .inl hfound) (fun _ _ _ he => hdetached he)
    nofun (fun hnot => absurd hnot (by simp [hs']))

theorem Inv.allStopped {listed : List ℕ} (hshutdown : s.shutdown = .managers listed [])
    (ids : List String) :
    ({ s with managersStore := s.managersStore.deleteAll ids, shutdown := .server } :
      MultiManagerState).Inv := by
  have hcalled : s.shutdown ≠ .notCalled := by
    rw [hshutdown]
    exact nofun
  have hlate : s.shutdown ∉ [.notCalled, .guests, .controlHost, .failed] := by
    rw [hshutdown]
    simp
  have hdead : ∀ {i e}, s.HasManager i e → ¬ e.Live := by
    intro i e he hlive
    have hnone := h.leaving hshutdown he hlive
    cases hnone
  refine h.stopStep hcalled (.refl rfl) rfl nofun (fun {id i} hi => ?_) (.inl rfl) rfl
    ?_ (fun _ _ _ he => h.detached hlate he) nofun (fun _ _ _ he => hdead he)
  · dsimp only at hi
    rw [get?_deleteAll] at hi
    split at hi
    · cases hi
    · exact hi
  · intro i e e' he he' hmain _
    obtain rfl := he.eq he'
    refine .inr ⟨?_, h.detached hlate he⟩
    by_contra hstopped
    exact hdead he ⟨by rw [hmain]; decide, by simpa using hstopped⟩

theorem Inv.stopGoesOn (ok : Bool) : (s.stopGoesOn ok).Inv := by
  unfold MultiManagerState.stopGoesOn
  split
  · next hshutdown =>
      exact h.stopStep_same (by rw [hshutdown]; exact nofun) rfl rfl rfl rfl rfl
        nofun (fun hnot => absurd (by simp) hnot) nofun
        (fun hnot => absurd hnot (by simp))
  · next hshutdown =>
      split
      · exact h.handlesCleared hshutdown
      · exact h.stopStep_same (by rw [hshutdown]; exact nofun) rfl rfl rfl rfl rfl
          nofun (fun hnot => absurd (by simp) hnot) nofun
          (fun hnot => absurd hnot (by simp))
  · next hshutdown =>
      exact h.stopStep_same (by rw [hshutdown]; exact nofun) rfl rfl rfl rfl rfl
        nofun (fun _ => by rw [hshutdown]; simp) nofun
        (fun hnot => absurd hnot (by simp))
  · next hshutdown =>
      have hcalled : s.shutdown ≠ .notCalled := by
        rw [hshutdown]
        exact nofun
      split
      · refine h.stopStep_same hcalled rfl rfl rfl rfl rfl nofun
          (fun _ => by rw [hshutdown]; simp) ?_ (fun hnot => absurd hnot (by simp))
        -- no start is in progress, so that a live Manager is in the store that is listed
        intro listed left hleft i e he hlive
        obtain ⟨rfl, rfl⟩ := Shutdown.managers.inj hleft
        rcases h.place he hlive with hfound | ⟨hprogress, -⟩
        · exact mem_values_iff.mpr ⟨_, hfound⟩
        · exact absurd hprogress (h.quiet hcalled he).1
      · exact h.stopStep_same hcalled rfl rfl rfl rfl rfl nofun
          (fun hnot => absurd (by simp) hnot) nofun
          (fun hnot => absurd hnot (by simp))
  · next hshutdown => exact h.allStopped hshutdown _
  · next hshutdown =>
      exact h.stopStep_same (by rw [hshutdown]; exact nofun) rfl rfl rfl rfl rfl
        nofun (fun _ => by rw [hshutdown]; simp) nofun
        (fun _ => by rw [hshutdown]; simp)
  · exact h

theorem Inv.managerStops {listed left : List ℕ}
    (hshutdown : s.shutdown = .managers listed left) (m : ℕ) :
    ({ s.update (· = m) fun e => { e with stopped := true } with
      shutdown := .managers listed (left.filter (· ≠ m)) } : MultiManagerState).Inv := by
  have hcalled : s.shutdown ≠ .notCalled := by
    rw [hshutdown]
    exact nofun
  set s' : MultiManagerState := { s.update (· = m) fun e => { e with stopped := true } with
    shutdown := .managers listed (left.filter (· ≠ m)) } with hs'
  have hstate : QuieterState s s' := .update rfl fun e => ⟨rfl, rfl, rfl, fun _ => rfl, id, id, id⟩
  refine h.stopStep hcalled hstate rfl nofun (fun hi => hi) (.inl rfl) rfl
    (fun _ _ _ hfound => .inl hfound) ?_ ?_ (fun hnot => absurd hnot (by simp [hs']))
  · intro _ i e' he'
    obtain ⟨e, he, hquieter⟩ := hstate.backward he'
    exact hquieter.detached (h.detached (by rw [hshutdown]; simp) he)
  · intro listed' left' hleft i e' he' hlive
    obtain ⟨rfl, rfl⟩ := Shutdown.managers.inj hleft
    obtain ⟨e, he, hquieter⟩ := hstate.backward he'
    apply List.mem_filter.mpr
    refine ⟨h.leaving hshutdown he (hquieter.live hlive), ?_⟩
    obtain ⟨f, -, rfl⟩ := s.entry_update he'
    by_contra hm
    rw [if_pos (by simpa using hm)] at hlive
    cases hlive.2

end

/-! ## Runs -/

variable {defaultConfig : ManagerConfiguration}

theorem Inv.startManager (h : s.Inv) {config : ManagerConfiguration}
    (hcareful : Js.trim config.id ≠ "" → s.managersStore.has config.id = false → s.Free config.id) :
    (s.startManager config).Inv := by
  unfold MultiManagerState.startManager
  split
  · exact h
  · next hstart =>
      rw [Bool.or_eq_true, not_or, decide_eq_true_eq, Bool.not_eq_true] at hstart
      exact h.create (hcareful hstart.1 hstart.2) hstart.2 true

theorem Inv.startManagers (h : s.Inv) {manager : InitialManager}
    (hcareful : Careful defaultConfig s (.startManagers manager)) :
    (s.next defaultConfig (.startManagers manager)).Inv := by
  show ((managerConfigs defaultConfig manager).foldl MultiManagerState.startManager s).Inv
  cases manager with
  | id id =>
    have hall : ∀ config ∈ managerConfigs defaultConfig (.id id), Js.trim config.id ≠ "" →
        s.managersStore.has config.id = false → s.Free config.id := hcareful
    have hconfigs : managerConfigs defaultConfig (.id id) =
        if Js.trim id = "" then [] else [{ defaultConfig with id }] := rfl
    rw [hconfigs] at hall ⊢
    by_cases hid : Js.trim id = ""
    · rw [if_pos hid]
      exact h
    · rw [if_neg hid] at hall ⊢
      exact h.startManager (hall _ List.mem_cons_self)
  | object given => exact h.startManager (hcareful _ List.mem_cons_self)
  | list given => exact h

theorem Inv.next (h : s.Inv) {a : Action} (hcareful : Careful defaultConfig s a) :
    (s.next defaultConfig a).Inv := by
  cases a with
  | startManagers manager => exact h.startManagers hcareful
  | startRequest config overloaded =>
    unfold MultiManagerState.next
    dsimp only
    split
    · exact h
    · next hstart =>
        rw [Bool.or_eq_true, not_or, Bool.not_eq_true, Bool.not_eq_true] at hstart
        exact h.create (hcareful hstart.1 hstart.2) hstart.2 false
  | mainSettles m ok =>
    unfold MultiManagerState.next
    dsimp only
    split
    · exact h
    · next e he => exact h.mainSettles he ok
  | peerSettles m ok =>
    unfold MultiManagerState.next
    dsimp only
    split
    · exact h
    · next e he => exact h.peerSettles he (hcareful he)
  | startGoesOn m =>
    unfold MultiManagerState.next
    dsimp only
    split
    · exact h
    · next e he => exact h.startGoesOn he
  | stopManager id => exact h.stopManager hcareful
  | stopManagerGoesOn k ok =>
    unfold MultiManagerState.next
    dsimp only
    split
    · exact h
    · next c hc => exact h.stopManagerGoesOn hc ok
  | stop => exact h.stop hcareful
  | stopGoesOn ok => exact h.stopGoesOn ok
  | managerStops m =>
    unfold MultiManagerState.next
    dsimp only
    split
    · next listed left hshutdown =>
        split
        · exact h.managerStops hshutdown m
        · exact h
    · exact h

theorem Careful.startsListed {a : Action} (h : Careful defaultConfig s a) :
    StartsListed defaultConfig s a := by
  cases a with
  | startManagers manager =>
    cases manager with
    | list given =>
      intro hnodup
      obtain rfl := h hnodup
      show (s.managers.drop s.managers.length).map _ = []
      rw [List.drop_length]
      rfl
    | id _ | object _ => trivial
  | _ => trivial

end MultiManagerState

open MultiManagerState

/-- In a run whose steps are careful, every Manager is accounted for. -/
theorem managers_accounted (verser2Host controlIngressHost : Bool)
    (defaultConfig : ManagerConfiguration)
    (actions : List Action)
    (h : System.Meets (·.next defaultConfig) (Careful defaultConfig)
      (new verser2Host controlIngressHost) actions) :
    System.Always (·.next defaultConfig) Safe (new verser2Host controlIngressHost) actions ∧
      System.Meets (·.next defaultConfig) (StartsListed defaultConfig)
        (new verser2Host controlIngressHost) actions := by
  generalize hs : new verser2Host controlIngressHost = s at h ⊢
  have hinv : s.Inv := by
    rw [← hs]
    exact inv_new verser2Host controlIngressHost
  clear hs
  induction actions generalizing s with
  | nil => exact ⟨hinv.safe, trivial⟩
  | cons a actions ih =>
    obtain ⟨hcareful, hrest⟩ := h
    obtain ⟨hsafe, hlisted⟩ := ih _ hrest (hinv.next hcareful)
    exact ⟨⟨hinv.safe, hsafe⟩, hcareful.startsListed, hlisted⟩

/-! ### Runs on fixed configurations -/

theorem MultiManagerState.Free.of_forall {s : MultiManagerState} {id : String}
    (hshutdown : s.shutdown = .notCalled)
    (hstarts : ∀ e ∈ s.managers, e.config.id = id → ¬ e.InProgress)
    (hstops : ∀ c ∈ s.stopCalls, c.id = id → c.stage = .done) : s.Free id where
  shutdown := hshutdown
  starts := fun he hid => hstarts _ (List.mem_of_getElem? he) hid
  stops := fun hc hid => hstops _ (List.mem_of_getElem? hc) hid

theorem MultiManagerState.not_inProgress_of_forall {s : MultiManagerState} {i : ℕ}
    {e : ManagerEntry}
    (h : ∀ e ∈ s.managers, ¬ e.InProgress) (he : s.HasManager i e) : ¬ e.InProgress :=
  h e (List.mem_of_getElem? he)

/-- A configuration with a guest at the control ingress. -/
def ingressConfig (id : String) : ManagerConfiguration := ⟨id, ⟨true, true⟩⟩

/-- A Manager is started on request, stopped, and started again; then the MultiManager stops. -/
def restartRun : List Action :=
  [.startRequest (ingressConfig "a") false, .mainSettles 0 true, .startGoesOn 0, .peerSettles 0 true,
    .peerSettles 0 true, .peerSettles 0 true, .startGoesOn 0,
    .stopManager "a", .stopManagerGoesOn 0 true, .stopManagerGoesOn 0 true, .stopManagerGoesOn 0 true,
    .stopManagerGoesOn 0 true,
    .startRequest (ingressConfig "a") false, .mainSettles 1 true, .startGoesOn 1, .peerSettles 1 true,
    .peerSettles 1 true, .peerSettles 1 true, .startGoesOn 1,
    .stop, .stopGoesOn true, .stopGoesOn true, .stopGoesOn true, .stopGoesOn true, .managerStops 1,
    .stopGoesOn true, .stopGoesOn true]

theorem restartRun_accounted :
    System.Always (·.next (ingressConfig "")) Safe (new true true) restartRun ∧
      System.Meets (·.next (ingressConfig "")) (StartsListed (ingressConfig "")) (new true true)
        restartRun := by
  apply managers_accounted
  refine ⟨fun _ _ => .of_forall rfl (by decide) (by decide), trivial, trivial, fun _ _ => rfl,
    fun _ _ => rfl, fun _ _ => rfl, trivial,
    fun _ => ⟨fun he _ => not_inProgress_of_forall (by decide +kernel) he, nofun⟩,
    trivial, trivial, trivial, trivial,
    fun _ _ => .of_forall rfl (by decide +kernel) (by decide +kernel), trivial, trivial,
    fun _ _ => rfl, fun _ _ => rfl, fun _ _ => rfl, trivial,
    fun _ _ _ he => not_inProgress_of_forall (by decide +kernel) he, trivial, trivial, trivial,
    trivial, trivial, trivial, trivial, trivial⟩

/-- Nothing of a list of two configurations is started, two requests for one id start two Managers, and
a Manager that cannot be attached is left running outside the store. -/
theorem overlapping_starts_not_accounted :
    (¬ System.Meets (·.next (ingressConfig "")) (StartsListed (ingressConfig "")) (new true true)
        [.startManagers (.list [⟨some "a", none⟩, ⟨some "b", none⟩])]) ∧
      (¬ System.Always (·.next (ingressConfig "")) Safe (new true true)
        [.startRequest (ingressConfig "a") false, .startRequest (ingressConfig "a") false]) ∧
      ¬ System.Always (·.next (ingressConfig "")) Safe (new true true)
        [.startRequest (ingressConfig "a") false, .mainSettles 0 true, .startGoesOn 0,
          .peerSettles 0 false] := by
  refine ⟨fun h => ?_, fun h => ?_, fun h => ?_⟩
  · exact absurd (h.1 (by decide)) (by decide)
  · have hsame := (System.always_last h).unique (i := 0) (j := 1) rfl rfl (by decide) (by decide) rfl
    cases hsame
  · rcases (System.always_last h).kept (i := 0) rfl rfl rfl with hfound | ⟨hstopped, -⟩
    · cases hfound
    · cases hstopped

end TransformHub.MultiManager

import Mathlib.Data.List.Nodup
import Mathlib.Data.List.Perm.Basic
import TransformHub.Lib.Transition
import TransformHub.Utility.Verser2RequestBoundary

/-!
# Runs of a request boundary

The first handler that runs settles the boundary, and no other one does.
-/

namespace TransformHub.Utility.Verser2RequestBoundary

/-! ## What is reported -/

/-- The listener's call, or the dispatch, that a report comes from. -/
def Origin.key : Origin → Option (ℕ × Role)
  | .event number role _ _ => some (number, role)
  | .dispatch => none

/-- The error is not one of the cascade. -/
def Origin.Outside (token : CascadeToken) : Origin → Prop
  | .event _ _ source code => ¬ (source ∈ token.sources ∧ code ∈ token.codes)
  | .dispatch => True

def Handler.role? : Handler → Option Role
  | .complete => none
  | .onError role _ _ => some role

def Invocation.key (c : Invocation) : Option (ℕ × Role) :=
  c.handler.role?.map fun role => (c.event, role)

namespace State

/-- What may be reported, or has been. -/
def dues (s : State) : List (Option (ℕ × Role)) :=
  s.fatals.map (·.origin.key) ++ ((s.inFlight.filterMap Invocation.key).map some ++
    if s.phase = .over then [] else [none])

structure Fine (s : State) : Prop where
  /-- there is one outcome from the first handler on -/
  one : s.outcomes.length = if s.handled then 1 else 0
  /-- the listeners are gone when the response has been closed -/
  removed : s.handled = true → s.closings = [] → s.ticks = 0 → s.listeners = []
  /-- what is fatal after a contained disconnect is no part of it -/
  unrelated : ∀ f ∈ s.fatals, ∀ token, f.cascade = some token → f.origin.Outside token
  /-- an event that begins after a fatal report is not reported -/
  later : ∀ f ∈ s.fatals, ∀ number role, f.origin.key = some (number, role) →
    ∀ m, s.firstFatal = some m → number < m
  /-- a listener reports an event once, and the dispatch is reported once -/
  once : (s.fatals.map (·.origin.key)).Nodup

/-- No second fatal report, and none after a contained disconnect. -/
structure Strict (s : State) : Prop extends Fine s where
  single : s.fatals.length ≤ 1
  uncontained : Outcome.contained ∈ s.outcomes → s.fatals = []

/-! ## Outcomes and listeners -/

/-- The listeners are gone, or going. -/
def Releases (s : State) : Prop :=
  s.listeners = [] ∨ s.closings ≠ [] ∨ 0 < s.ticks

structure Settles (s : State) : Prop where
  outcomes : s.outcomes.length = if s.settled then 1 else 0
  cascade : s.cascadeToken.isSome = true → s.settled = true
  released : s.settled = true → s.Releases

variable {w : Wiring} {s : State} {o : Outcome} {origin : Origin} {error : ErrorValue}
  {source owner : Emitter} {role : Role} {event : ℕ}

theorem settle_of_settled (h : s.settled = true) (o : Outcome) : s.settle o = s :=
  if_pos h

theorem settle_of_open (h : s.settled = false) (o : Outcome) :
    s.settle o = { s with settled := true, outcomes := s.outcomes ++ [o] } := by
  unfold settle
  rw [if_neg]
  simp [h]

@[simp] theorem settled_settle : (s.settle o).settled = true := by
  cases h : s.settled with
  | true =>
    rw [settle_of_settled h]
    exact h
  | false => rw [settle_of_open h]

theorem length_outcomes_settle (h : s.Settles) : (s.settle o).outcomes.length = 1 := by
  have hlength := h.outcomes
  cases hsettled : s.settled with
  | true =>
    rw [settle_of_settled hsettled, hlength, hsettled]
    rfl
  | false =>
    rw [hsettled] at hlength
    rw [settle_of_open hsettled, List.length_append, hlength]
    rfl

theorem Settles.settled (h : s.Settles) {t : State} (hsettled : t.settled = true)
    (houtcomes : t.outcomes = (s.settle o).outcomes) (hreleases : t.Releases) : t.Settles where
  outcomes := by
    rw [hsettled, houtcomes, length_outcomes_settle h]
    rfl
  cascade _ := hsettled
  released _ := hreleases

theorem Settles.complete (h : s.Settles) : s.complete.Settles := by
  unfold State.complete
  split
  · exact h
  · exact h.settled settled_settle rfl (.inl rfl)

theorem Settles.fatal (h : s.Settles) (origin : Origin) :
    ((s.settle .fatal).reportFatal origin).Settles :=
  h.settled settled_settle rfl (.inl rfl)

theorem Settles.contain (h : s.Settles) (w : Wiring) (error : ErrorValue) (source owner : Emitter) :
    (s.contain w error source owner).Settles := by
  have hreleases : (s.contain w error source owner).Releases := by
    refine .inr (.inl ?_)
    simp [State.contain]
  exact h.settled (o := .contained) settled_settle rfl hreleases

@[simp] theorem settled_complete : s.complete.settled = true := by
  unfold complete
  split
  · assumption
  · exact settled_settle

@[simp] theorem handled_settle : (s.settle o).handled = s.handled := by
  unfold settle
  split <;> rfl

@[simp] theorem handled_complete : s.complete.handled = s.handled := by
  unfold complete
  split
  · rfl
  · exact handled_settle

theorem reportFatal_eq (h : s.Settles) (hcascade : s.cascadeToken.isSome = true) :
    s.reportFatal origin = (s.settle .fatal).reportFatal origin := by
  rw [settle_of_settled (h.cascade hcascade)]

theorem onEmitterError_cases (h : s.Settles) (w : Wiring) (event : ℕ) (role : Role)
    (error : ErrorValue) (source owner : Emitter) :
    (s.settled = true ∧ s.onEmitterError w event role error source owner = s) ∨
    (s.cascadeToken = none ∧
      s.onEmitterError w event role error source owner = s.contain w error source owner) ∨
    ∃ origin, origin.key = some (event, role) ∧
      (∀ token, s.cascadeToken = some token → origin.Outside token) ∧
      s.onEmitterError w event role error source owner =
        (s.settle .fatal).reportFatal origin := by
  unfold onEmitterError
  cases hcascade : s.cascadeToken with
  | some token =>
    have hsettled : s.settled = true := by
      apply h.cascade
      rw [hcascade]
      rfl
    simp only
    split
    · exact .inl ⟨hsettled, rfl⟩
    next houtside =>
      refine .inr (.inr ⟨.event event role source ((errorCode error).getD ""), rfl, ?_, ?_⟩)
      · rintro _ ⟨⟩
        exact houtside
      · apply reportFatal_eq h
        rw [hcascade]
        rfl
  | none =>
    dsimp only
    split
    · exact .inr (.inl ⟨rfl, rfl⟩)
    · refine .inr (.inr ⟨.event event role source ((errorCode error).getD ""), rfl, ?_, rfl⟩)
      rintro _ ⟨⟩

/-! ## Reports -/

def roles (s : State) : List Role := s.listeners.filterMap (·.handler.role?)

structure Reports (s : State) : Prop where
  once : s.dues.Nodup
  roles : s.roles.Nodup
  begun : ∀ number role, some (number, role) ∈ s.dues → number < s.events
  unreported : s.firstFatal = none → s.fatals = []
  released : ∀ m, s.firstFatal = some m →
    s.listeners = [] ∧ ∀ number role, some (number, role) ∈ s.dues → number < m
  unrelated : ∀ f ∈ s.fatals, ∀ token, f.cascade = some token → f.origin.Outside token

/-- Nothing is reported or begun, and no listener is added. -/
structure Quiet (s t : State) : Prop where
  fatals : t.fatals = s.fatals
  inFlight : t.inFlight = s.inFlight
  phase : t.phase = s.phase
  events : t.events = s.events
  firstFatal : t.firstFatal = s.firstFatal
  listeners : t.listeners = s.listeners ∨ t.listeners = []

variable {t : State}

theorem Quiet.refl (s : State) : s.Quiet s :=
  ⟨rfl, rfl, rfl, rfl, rfl, .inl rfl⟩

theorem Quiet.dues (h : s.Quiet t) : t.dues = s.dues := by
  unfold State.dues
  rw [h.fatals, h.inFlight, h.phase]

theorem Quiet.cleanup (h : s.Quiet t) : s.Quiet t.cleanup :=
  { h with listeners := .inr rfl }

theorem quiet_settle (s : State) (o : Outcome) : s.Quiet (s.settle o) := by
  unfold settle
  split <;> exact ⟨rfl, rfl, rfl, rfl, rfl, .inl rfl⟩

theorem quiet_complete (s : State) : s.Quiet s.complete := by
  unfold complete
  split
  · exact .refl s
  · exact (quiet_settle s .completed).cleanup

theorem quiet_contain (s : State) (w : Wiring) (error : ErrorValue) (source owner : Emitter) :
    s.Quiet (s.contain w error source owner) := by
  have h := quiet_settle s .contained
  exact ⟨h.fatals, h.inFlight, h.phase, h.events, h.firstFatal, h.listeners⟩

theorem Reports.quiet (h : s.Reports) (hquiet : s.Quiet t) : t.Reports where
  once := by
    rw [hquiet.dues]
    exact h.once
  roles := by
    rcases hquiet.listeners with hlisteners | hlisteners
    · rw [State.roles, hlisteners]
      exact h.roles
    · rw [State.roles, hlisteners]
      exact List.nodup_nil
  begun := by
    rw [hquiet.dues, hquiet.events]
    exact h.begun
  unreported := by
    rw [hquiet.firstFatal, hquiet.fatals]
    exact h.unreported
  released := by
    intro m hm
    rw [hquiet.firstFatal] at hm
    obtain ⟨hlisteners, hdues⟩ := h.released m hm
    rw [hquiet.dues]
    refine ⟨?_, hdues⟩
    rcases hquiet.listeners with hsame | hnone
    · rw [hsame, hlisteners]
    · exact hnone
  unrelated := by
    rw [hquiet.fatals]
    exact h.unrelated

theorem Reports.fewer (h : s.Reports) (hdues : t.dues.Subperm s.dues)
    (hevents : t.events = s.events) (hfatals : t.fatals = s.fatals)
    (hfirst : t.firstFatal = s.firstFatal) (hlisteners : t.listeners = s.listeners) :
    t.Reports where
  once := by
    obtain ⟨l, hperm, hsub⟩ := hdues
    exact hperm.nodup_iff.mp (h.once.sublist hsub)
  roles := by
    rw [State.roles, hlisteners]
    exact h.roles
  begun number role hmem := by
    rw [hevents]
    exact h.begun number role (hdues.subset hmem)
  unreported := by
    rw [hfirst, hfatals]
    exact h.unreported
  released m hm := by
    rw [hfirst] at hm
    rw [hlisteners]
    refine ⟨(h.released m hm).1, fun number role hmem => ?_⟩
    exact (h.released m hm).2 number role (hdues.subset hmem)
  unrelated := by
    rw [hfatals]
    exact h.unrelated

theorem Reports.report (h : s.Reports) (hdues : (origin.key :: s.dues).Nodup)
    (hbegun : ∀ number role, origin.key = some (number, role) →
      number < s.events ∧ ∀ m, s.firstFatal = some m → number < m)
    (houtside : ∀ token, s.cascadeToken = some token → origin.Outside token) :
    (s.reportFatal origin).Reports := by
  have hperm : (s.reportFatal origin).dues.Perm (origin.key :: s.dues) := by
    show ((s.fatals ++ [_]).map _ ++ _).Perm _
    rw [List.map_append, List.append_assoc]
    exact List.perm_middle
  have hmem : ∀ number role, some (number, role) ∈ (s.reportFatal origin).dues →
      origin.key = some (number, role) ∨ some (number, role) ∈ s.dues := by
    intro number role hmem
    rcases List.mem_cons.mp (hperm.subset hmem) with hnew | hold
    · exact .inl hnew.symm
    · exact .inr hold
  refine ⟨hperm.nodup_iff.mpr hdues, List.nodup_nil, ?_, ?_, ?_, ?_⟩
  · intro number role hdue
    rcases hmem number role hdue with hnew | hold
    · exact (hbegun number role hnew).1
    · exact h.begun number role hold
  · exact nofun
  · intro m hm
    refine ⟨rfl, fun number role hdue => ?_⟩
    cases hm
    cases hfirst : s.firstFatal with
    | none =>
      -- the first report is made while no further event can begin
      rcases hmem number role hdue with hnew | hold
      · exact (hbegun number role hnew).1
      · exact h.begun number role hold
    | some m =>
      rcases hmem number role hdue with hnew | hold
      · exact (hbegun number role hnew).2 m hfirst
      · exact (h.released m hfirst).2 number role hold
  · intro f hf token htoken
    rcases List.mem_append.mp hf with hold | hnew
    · exact h.unrelated f hold token htoken
    · cases List.mem_singleton.mp hnew
      exact houtside token htoken

/-! ## Steps -/

structure Inv (s : State) : Prop where
  settles : s.Settles
  handled : s.handled = s.settled
  reports : s.Reports

theorem quiet_handled (s : State) : s.Quiet { s with handled := true } :=
  ⟨rfl, rfl, rfl, rfl, rfl, .inl rfl⟩

theorem dues_eraseIdx {i : ℕ} {c : Invocation} (hc : s.inFlight[i]? = some c) :
    s.dues.Perm ((c.key.map some).toList ++ { s with inFlight := s.inFlight.eraseIdx i }.dues) := by
  obtain ⟨hlt, rfl⟩ := List.getElem?_eq_some_iff.mp hc
  have hperm : s.inFlight.Perm (s.inFlight[i] :: s.inFlight.eraseIdx i) :=
    (List.getElem_cons_eraseIdx_perm hlt).symm
  have hkeys := (hperm.filterMap Invocation.key).map some
  rw [List.filterMap_cons] at hkeys
  unfold State.dues
  cases hkey : s.inFlight[i].key with
  | none =>
    rw [hkey] at hkeys
    exact (hkeys.append_right _).append_left _
  | some key =>
    rw [hkey] at hkeys
    exact ((hkeys.append_right _).append_left _).trans List.perm_middle

theorem Reports.erase (h : s.Reports) {i : ℕ} {c : Invocation} (hc : s.inFlight[i]? = some c) :
    { s with inFlight := s.inFlight.eraseIdx i }.Reports := by
  have hdues : { s with inFlight := s.inFlight.eraseIdx i }.dues.Subperm s.dues :=
    (List.sublist_append_right _ _).subperm.trans (dues_eraseIdx hc).symm.subperm
  exact h.fewer hdues rfl rfl rfl rfl

theorem Reports.fatal (h : s.Reports) (hdues : (origin.key :: s.dues).Nodup)
    (hbegun : ∀ number role, origin.key = some (number, role) →
      number < s.events ∧ ∀ m, s.firstFatal = some m → number < m)
    (houtside : ∀ token, s.cascadeToken = some token → origin.Outside token) :
    ((s.settle .fatal).reportFatal origin).Reports := by
  have hquiet := quiet_settle s .fatal
  have hcascade : (s.settle .fatal).cascadeToken = s.cascadeToken := by
    unfold settle
    split <;> rfl
  apply (h.quiet hquiet).report
  · rw [hquiet.dues]
    exact hdues
  · rw [hquiet.events, hquiet.firstFatal]
    exact hbegun
  · rw [hcascade]
    exact houtside

theorem handled_fatal : ((s.settle .fatal).reportFatal origin).handled = s.handled :=
  handled_settle

theorem settled_fatal : ((s.settle .fatal).reportFatal origin).settled = true :=
  settled_settle

theorem Inv.invoke (h : s.Inv) (w : Wiring) (i : ℕ) : (next w s (.invoke i)).Inv := by
  simp only [next]
  cases hc : s.inFlight[i]? with
  | none => exact h
  | some c =>
    have hperm := dues_eraseIdx hc
    have hnodup := hperm.nodup_iff.mp h.reports.once
    have hmem : ∀ number role, c.key = some (number, role) → some (number, role) ∈ s.dues := by
      intro number role hkey
      rw [hperm.mem_iff, hkey]
      exact List.mem_cons_self
    have hbegun := h.reports.begun
    have hreleased := h.reports.released
    -- the state in which the handler runs
    have hsettles : { s with inFlight := s.inFlight.eraseIdx i, handled := true }.Settles :=
      ⟨h.settles.outcomes, h.settles.cascade, h.settles.released⟩
    have hreports : { s with inFlight := s.inFlight.eraseIdx i, handled := true }.Reports :=
      (h.reports.erase hc).quiet (quiet_handled _)
    simp only [handle]
    cases hhandler : c.handler with
    | complete =>
      refine ⟨hsettles.complete, ?_, hreports.quiet (quiet_complete _)⟩
      rw [handled_complete, settled_complete]
    | onError role source owner =>
      have hkey : c.key = some (c.event, role) := by
        rw [Invocation.key, hhandler]
        rfl
      simp only
      rcases onEmitterError_cases hsettles w c.event role c.error source owner with
        ⟨hsettled, heq⟩ | ⟨-, heq⟩ | ⟨origin, horigin, houtside, heq⟩
      · rw [heq]
        exact ⟨hsettles, hsettled.symm, hreports⟩
      · rw [heq]
        refine ⟨hsettles.contain w c.error source owner, ?_, hreports.quiet ?_⟩
        · show (settle _ _).handled = (settle _ _).settled
          rw [handled_settle, settled_settle]
        · exact quiet_contain _ w c.error source owner
      · rw [heq]
        refine ⟨hsettles.fatal origin, ?_, hreports.fatal ?_ ?_ houtside⟩
        · rw [handled_fatal, settled_fatal]
        · rw [horigin]
          rw [hkey] at hnodup
          exact hnodup
        · intro number role' hnew
          rw [horigin, ← hkey] at hnew
          refine ⟨hbegun number role' (hmem number role' hnew), fun m hm => ?_⟩
          exact (hreleased m hm).2 number role' (hmem number role' hnew)

theorem dues_over (h : s.phase ≠ .over) : s.dues.Perm (none :: { s with phase := .over }.dues) := by
  unfold State.dues
  rw [if_neg h, if_pos rfl, List.append_nil, ← List.append_assoc]
  exact List.perm_append_singleton _ _

theorem Reports.over (h : s.Reports) (hphase : s.phase ≠ .over) :
    { s with phase := .over }.Reports := by
  have hdues : { s with phase := .over }.dues.Subperm s.dues :=
    (List.sublist_cons_self _ _).subperm.trans (dues_over hphase).symm.subperm
  exact h.fewer hdues rfl rfl rfl rfl

theorem Inv.dispatchError (h : s.Inv) (hphase : s.phase ≠ .over) :
    { s with phase := .over, handled := true }.onDispatchError.Inv := by
  have hperm := dues_over hphase
  have hnodup := hperm.nodup_iff.mp h.reports.once
  have hreports : { s with phase := .over, handled := true }.Reports :=
    (h.reports.over hphase).quiet (quiet_handled _)
  have hsettles : { s with phase := .over, handled := true }.Settles :=
    ⟨h.settles.outcomes, h.settles.cascade, h.settles.released⟩
  unfold onDispatchError
  refine ⟨hsettles.fatal .dispatch, ?_, hreports.fatal hnodup ?_ (fun _ _ => trivial)⟩
  · rw [handled_fatal, settled_fatal]
  · intro number role hkey
    cases hkey

/-- The calls that an event begins. -/
def begunBy (s : State) (emitter : Emitter) (name : EventName) (error : ErrorValue) :
    List Invocation :=
  (s.listeners.filter fun l => l.emitter = emitter ∧ l.event = name).map
    fun l => ⟨s.events, l.handler, error⟩

theorem key_begunBy (s : State) (emitter : Emitter) (name : EventName) (error : ErrorValue) :
    (s.begunBy emitter name error).filterMap Invocation.key =
      ((s.listeners.filter fun l => l.emitter = emitter ∧ l.event = name).filterMap
        (·.handler.role?)).map fun role => (s.events, role) := by
  rw [begunBy, List.filterMap_map, List.map_filterMap]
  rfl

theorem Reports.emit (h : s.Reports) (emitter : Emitter) (name : EventName)
    (error : ErrorValue) :
    { s with
      inFlight := s.inFlight ++ s.begunBy emitter name error
      events := s.events + 1 }.Reports := by
  generalize hnew : ((s.begunBy emitter name error).filterMap Invocation.key).map some = new
  -- the new calls are of a new event, and each is of another role
  have hnodup : new.Nodup := by
    rw [← hnew, key_begunBy, List.map_map]
    apply (h.roles.sublist (List.filter_sublist.filterMap _)).map
    intro a b hab
    simpa using hab
  have hnumber : ∀ k ∈ new, ∃ role, k = some (s.events, role) := by
    intro k hk
    rw [← hnew, key_begunBy, List.map_map, List.mem_map] at hk
    obtain ⟨role, -, rfl⟩ := hk
    exact ⟨role, rfl⟩
  have hperm : ({ s with
      inFlight := s.inFlight ++ s.begunBy emitter name error
      events := s.events + 1 } : State).dues.Perm (new ++ s.dues) := by
    unfold State.dues
    rw [List.filterMap_append, List.map_append, hnew, List.append_assoc]
    exact ((List.perm_append_comm_assoc _ new _).append_left _).trans
      (List.perm_append_comm_assoc _ new _)
  have hmem : ∀ number role, some (number, role) ∈ ({ s with
      inFlight := s.inFlight ++ s.begunBy emitter name error
      events := s.events + 1 } : State).dues →
      some (number, role) ∈ new ∨ some (number, role) ∈ s.dues := by
    intro number role hdue
    exact List.mem_append.mp (hperm.subset hdue)
  refine ⟨?_, h.roles, ?_, h.unreported, ?_, h.unrelated⟩
  · apply hperm.nodup_iff.mpr
    refine List.nodup_append.mpr ⟨hnodup, h.once, ?_⟩
    rintro a ha b hb rfl
    obtain ⟨role, rfl⟩ := hnumber a ha
    exact absurd (h.begun s.events role hb) (Nat.lt_irrefl _)
  · intro number role hdue
    show number < s.events + 1
    rcases hmem number role hdue with hnow | hold
    · obtain ⟨_, heq⟩ := hnumber _ hnow
      cases heq
      omega
    · have hlt := h.begun number role hold
      omega
  · intro m hm
    obtain ⟨hlisteners, hdues⟩ := h.released m hm
    refine ⟨hlisteners, fun number role hdue => ?_⟩
    rcases hmem number role hdue with hnow | hold
    · -- after a report there is no listener that an event could call
      rw [← hnew, begunBy, hlisteners] at hnow
      cases hnow
    · exact hdues number role hold

theorem Inv.closed (h : s.Inv) (w : Wiring) : (next w s .closed).Inv := by
  simp only [next]
  cases hclosings : s.closings with
  | nil => exact h
  | cons source closings =>
    dsimp only
    split
    · refine ⟨⟨h.settles.outcomes, h.settles.cascade, fun _ => ?_⟩, h.handled, ?_⟩
      · exact .inr (.inr (Nat.succ_pos _))
      · exact h.reports.quiet ⟨rfl, rfl, rfl, rfl, rfl, .inl rfl⟩
    · refine ⟨⟨h.settles.outcomes, h.settles.cascade, fun _ => .inl rfl⟩, h.handled, ?_⟩
      exact h.reports.quiet ⟨rfl, rfl, rfl, rfl, rfl, .inr rfl⟩

theorem Inv.tick (h : s.Inv) (w : Wiring) : (next w s .tick).Inv := by
  simp only [next]
  split
  · exact h
  · refine ⟨⟨h.settles.outcomes, h.settles.cascade, fun _ => .inl rfl⟩, h.handled, ?_⟩
    exact h.reports.quiet ⟨rfl, rfl, rfl, rfl, rfl, .inr rfl⟩

theorem Inv.dispatchReturns (h : s.Inv) (w : Wiring) (promise : Bool) :
    (next w s (.dispatchReturns promise)).Inv := by
  simp only [next]
  split
  next hphase =>
    refine ⟨⟨h.settles.outcomes, h.settles.cascade, h.settles.released⟩, h.handled, ?_⟩
    cases promise with
    | true =>
      have hdues : { s with phase := .pending }.dues = s.dues := by
        unfold State.dues
        rw [hphase]
        rfl
      exact h.reports.fewer (hdues ▸ List.Subperm.refl _) rfl rfl rfl rfl
    | false =>
      apply h.reports.over
      rw [hphase]
      decide
  · exact h

theorem Inv.promiseFulfils (h : s.Inv) (w : Wiring) : (next w s .promiseFulfils).Inv := by
  simp only [next]
  split
  next hphase =>
    have hover : s.phase ≠ .over := by
      rw [hphase]
      decide
    have hsettles : { s with phase := .over, handled := true }.Settles :=
      ⟨h.settles.outcomes, h.settles.cascade, h.settles.released⟩
    refine ⟨hsettles.complete, ?_, ?_⟩
    · rw [handled_complete, settled_complete]
    · exact ((h.reports.over hover).quiet (quiet_handled _)).quiet (quiet_complete _)
  · exact h

theorem Inv.next (h : s.Inv) (w : Wiring) (a : Action) : (State.next w s a).Inv := by
  have hsettles := h.settles
  cases a with
  | emit emitter name error =>
    refine ⟨⟨hsettles.outcomes, hsettles.cascade, hsettles.released⟩, h.handled, ?_⟩
    exact h.reports.emit emitter name error
  | invoke i => exact h.invoke w i
  | closed => exact h.closed w
  | tick => exact h.tick w
  | dispatchReturns promise => exact h.dispatchReturns w promise
  | dispatchThrows =>
    simp only [State.next]
    split
    next hphase =>
      apply h.dispatchError
      rw [hphase]
      decide
    · exact h
  | promiseFulfils => exact h.promiseFulfils w
  | promiseRejects =>
    simp only [State.next]
    split
    next hphase =>
      apply h.dispatchError
      rw [hphase]
      decide
    · exact h
  | mutate emitter flags | startHeaders =>
    refine ⟨⟨hsettles.outcomes, hsettles.cascade, hsettles.released⟩, h.handled, ?_⟩
    exact h.reports.quiet ⟨rfl, rfl, rfl, rfl, rfl, .inl rfl⟩

/-! ## Runs -/

theorem roles_addBoundaryErrorListener (w : Wiring) (role : Role) (source : Option Emitter)
    (owner : Emitter) :
    ((addBoundaryErrorListener w role source owner).filterMap (·.handler.role?)).Sublist
      [role] := by
  unfold addBoundaryErrorListener
  split
  · exact List.nil_sublist _
  · split
    · exact .refl _
    · exact List.nil_sublist _

theorem inv_start (w : Wiring) (flags : Emitter → StreamFlags) (headersStarted : Bool) :
    (start w flags headersStarted).Inv := by
  have hroles : (start w flags headersStarted).roles.Sublist
      ([.request] ++ [.body] ++ [.raw] ++ [.stream] ++ [.response] ++ [.bodyStream] ++ []) := by
    show ((addedListeners w).filterMap _).Sublist _
    simp only [addedListeners, List.filterMap_append]
    refine .append (.append (.append (.append (.append (.append ?_ ?_) ?_) ?_) ?_) ?_) ?_
    · exact roles_addBoundaryErrorListener ..
    · exact roles_addBoundaryErrorListener ..
    · exact roles_addBoundaryErrorListener ..
    · exact roles_addBoundaryErrorListener ..
    · exact roles_addBoundaryErrorListener ..
    · exact roles_addBoundaryErrorListener ..
    · split <;> exact .refl _
  refine ⟨⟨rfl, fun h => h, fun h => nomatch h⟩, rfl, ?_⟩
  refine ⟨List.nodup_singleton _, List.Nodup.sublist hroles (by decide), ?_, fun _ => rfl, ?_, ?_⟩
  · intro number role hdue
    cases List.mem_singleton.mp hdue
  · intro m hm
    cases hm
  · intro f hf
    cases hf

theorem Inv.fine (h : s.Inv) : s.Fine where
  one := by
    rw [h.handled]
    exact h.settles.outcomes
  removed hhandled hclosings hticks := by
    rw [h.handled] at hhandled
    rcases h.settles.released hhandled with hnone | hclosing | htick
    · exact hnone
    · exact absurd hclosings hclosing
    · omega
  unrelated := h.reports.unrelated
  later f hf number role hkey m hm := by
    apply (h.reports.released m hm).2 number role
    rw [← hkey]
    exact List.mem_append_left _ (List.mem_map_of_mem hf)
  once := h.reports.once.sublist (List.sublist_append_left _ _)

/-- In every run the first handler gives the one outcome, each listener reports at most once, and no
listener stays. -/
theorem boundary_fine (w : Wiring) (flags : Emitter → StreamFlags) (headersStarted : Bool)
    (actions : List Action) :
    System.Always (State.next w) Fine (start w flags headersStarted) actions := by
  have hinv := inv_start w flags headersStarted
  apply System.always_of_meets (I := Inv) _ hinv hinv.fine actions (System.meets_anyStep _ actions)
  intro s a h _ _
  exact ⟨h.next w a, (h.next w a).fine⟩

/-! ## A dispatch that fails after its peer has gone -/

def plainWiring : Wiring where
  request := 0
  body := none
  raw := none
  stream := none
  response := 1
  bodyStream := none
  listens _ := true

/-- The request is destroyed, its reset is contained, and then the promise is rejected. -/
def rejectedAfterReset : List Action :=
  [.mutate 0 ⟨false, false, true, false, false, none⟩, .dispatchReturns true,
    .emit 0 .error (.object (some "ECONNRESET") .other .other .other .other), .invoke 0, .closed,
    .promiseRejects]

theorem not_strict_rejectedAfterReset :
    ¬ System.Always (State.next plainWiring) Strict
      (start plainWiring (fun _ => ⟨false, false, false, false, false, none⟩) false)
      rejectedAfterReset := by
  intro h
  have hcontained := (System.always_last h).uncontained
  exact absurd (hcontained (by decide)) (by decide)

end State

end TransformHub.Utility.Verser2RequestBoundary

import TransformHub.Host.RunnerBroker
import TransformHub.Lib.Transition

/-!
# Runs of the broker of the runners

The calls of `waitForRoute` settle once, whatever happens (`sound_run`).
-/

namespace TransformHub.Host

namespace PollingVerser2RunnerBroker

variable {s s' : PollingVerser2RunnerBroker} {id : ℕ} {domain : RouteName}
  {route : Verser2RunnerRoute} {event : VerserBrokerRouteChangeEvent}

/-! ## Checks -/

/-- Only waiters may have changed. -/
structure SameRoutes (s s' : PollingVerser2RunnerBroker) : Prop where
  routes : s'.routes = s.routes
  inactiveRoutes : s'.inactiveRoutes = s.inactiveRoutes
  lastInactiveGenerations : s'.lastInactiveGenerations = s.lastInactiveGenerations
  domains : s'.domains = s.domains

theorem SameRoutes.refl (s : PollingVerser2RunnerBroker) : SameRoutes s s := ⟨rfl, rfl, rfl, rfl⟩

theorem SameRoutes.trans {s'' : PollingVerser2RunnerBroker} (h : SameRoutes s s')
    (h' : SameRoutes s' s'') : SameRoutes s s'' :=
  ⟨h'.routes.trans h.routes, h'.inactiveRoutes.trans h.inactiveRoutes,
    h'.lastInactiveGenerations.trans h.lastInactiveGenerations, h'.domains.trans h.domains⟩

section

variable (s)
include s

theorem sameRoutes_check (id : ℕ) : SameRoutes s (s.check id) := by
  unfold check
  split
  · exact ⟨rfl, rfl, rfl, rfl⟩
  · exact .refl s
  · exact ⟨rfl, rfl, rfl, rfl⟩

theorem sameRoutes_checkAll : SameRoutes s s.checkAll := by
  unfold checkAll
  generalize s.routeWaiters.entries = entries
  induction entries generalizing s with
  | nil => exact .refl s
  | cons id entries ih => exact (sameRoutes_check s id).trans (ih (s.check id))

theorem goes_check (id : ℕ) : s.routeWaiters.Goes (s.check id).routeWaiters := by
  unfold check
  split
  · exact Waiters.goes_finish _ id _
  · exact .refl _
  · exact Waiters.goes_finish _ id _

theorem goes_checkAll : s.routeWaiters.Goes s.checkAll.routeWaiters := by
  unfold checkAll
  generalize s.routeWaiters.entries = entries
  induction entries generalizing s with
  | nil => exact .refl _
  | cons id entries ih => exact (goes_check s id).trans (ih (s.check id))

end

/-! ## Steps and the waiters -/

theorem record_routeWaiters (s : PollingVerser2RunnerBroker) (event : VerserBrokerRouteChangeEvent) :
    (s.record event).routeWaiters = s.routeWaiters := by
  unfold record
  split <;> rfl

theorem goes_handleRouteChange (s : PollingVerser2RunnerBroker)
    (event : VerserBrokerRouteChangeEvent) :
    s.routeWaiters.Goes (s.handleRouteChange event).routeWaiters := by
  have hrecord := record_routeWaiters s event
  unfold handleRouteChange
  split
  · exact goes_checkAll (s.activate event.key)
  · exact goes_checkAll (s.activate event.key)
  · split
    · exact .refl _
    · have h := goes_checkAll ((s.record event).deactivate event.key)
      rwa [show ((s.record event).deactivate event.key).routeWaiters = s.routeWaiters from
        hrecord] at h
  · split
    · exact .refl _
    · have h := goes_checkAll (((s.record event).deactivate event.key).forget event.key)
      rwa [show (((s.record event).deactivate event.key).forget event.key).routeWaiters =
        s.routeWaiters from hrecord] at h

theorem goes_waitForRoute (S : s.routeWaiters.Sound) (domain : RouteName) (timeoutMs : Option ℕ)
    (signal : Option Bool) :
    s.routeWaiters.Goes (s.waitForRoute domain timeoutMs signal).routeWaiters := by
  unfold waitForRoute
  dsimp only
  split
  · exact S.goes_settle ..
  · exact S.goes_settle ..
  · split
    · exact S.goes_settle ..
    · apply (Waiters.goes_add s.routeWaiters timeoutMs signal.isSome).trans
      exact goes_check { s with
        routeWaiters := s.routeWaiters.add timeoutMs signal.isSome
        domains := Function.update s.domains s.routeWaiters.next domain } _

theorem waitForRoute_routes (s : PollingVerser2RunnerBroker) (domain : RouteName)
    (timeoutMs : Option ℕ) (signal : Option Bool) :
    (s.waitForRoute domain timeoutMs signal).routes = s.routes ∧
      (s.waitForRoute domain timeoutMs signal).inactiveRoutes = s.inactiveRoutes := by
  unfold waitForRoute
  dsimp only
  split
  · exact ⟨rfl, rfl⟩
  · exact ⟨rfl, rfl⟩
  · split
    · exact ⟨rfl, rfl⟩
    · have h := sameRoutes_check { s with
        routeWaiters := s.routeWaiters.add timeoutMs signal.isSome
        domains := Function.update s.domains s.routeWaiters.next domain } s.routeWaiters.next
      exact ⟨h.routes, h.inactiveRoutes⟩

theorem goes_next (S : s.routeWaiters.Sound) (a : Action) :
    s.routeWaiters.Goes (next s a).routeWaiters := by
  cases a with
  | routes routes => exact .refl _
  | routeChange event => exact goes_handleRouteChange s event
  | waitForRoute domain timeoutMs signal => exact goes_waitForRoute S domain timeoutMs signal
  | tick id =>
    show s.routeWaiters.Goes (if (s.routeWaiters.waiter id).interval then s.check id
      else s).routeWaiters
    split
    · exact goes_check s id
    · exact .refl _
  | expire id =>
    show s.routeWaiters.Goes (if (s.routeWaiters.waiter id).timeout then s.finish id _
      else s).routeWaiters
    split
    · exact Waiters.goes_finish _ id _
    · exact .refl _
  | abort id =>
    show s.routeWaiters.Goes (if (s.routeWaiters.waiter id).listener then s.finish id _
      else s).routeWaiters
    split
    · exact Waiters.goes_finish _ id _
    · exact .refl _

theorem goes_foldl (S : s.routeWaiters.Sound) (actions : List Action) :
    s.routeWaiters.Goes (actions.foldl next s).routeWaiters := by
  induction actions generalizing s with
  | nil => exact .refl _
  | cons a actions ih =>
    have h := goes_next S a
    exact h.trans (ih (S.goes h))

theorem sound_run (routes : List Verser2RunnerRoute) (actions : List Action) :
    (run routes actions).routeWaiters.Sound := by
  have S : (new routes).routeWaiters.Sound := Waiters.sound_empty
  exact S.goes (goes_foldl S actions)

/-- A call that has not been settled can be: its interval runs, its timeout and the listener on its
signal if it has them, and each of them settles it. -/
structure Waiting (s : PollingVerser2RunnerBroker) (id : ℕ) : Prop
    extends s.routeWaiters.Pending id where
  ready : ∀ route, s.getActiveRoute (s.domains id) = .ok (some route) →
    (next s (.tick id)).routeWaiters.Settled id (.ok ())
  failed : ∀ error, s.getActiveRoute (s.domains id) = .error error →
    (next s (.tick id)).routeWaiters.Settled id (.error error)
  expiry : (s.routeWaiters.waiter id).timeoutMs ≠ none →
    (next s (.expire id)).routeWaiters.Settled id (.error (.timedOut (s.domains id)))
  abort : (s.routeWaiters.waiter id).signal = true →
    (next s (.abort id)).routeWaiters.Settled id (.error .cancelled)

theorem Waiting.of_pending (h : s.routeWaiters.Pending id) : s.Waiting id := by
  have htick : next s (.tick id) = s.check id := if_pos h.interval
  refine ⟨h, fun route hroute => ?_, fun error herror => ?_, fun htimeout => ?_, fun hsignal => ?_⟩
  · rw [htick]
    unfold check
    rw [hroute]
    exact h.finish (.ok ())
  · rw [htick]
    unfold check
    rw [herror]
    exact h.finish (.error error)
  · have htimeout : (s.routeWaiters.waiter id).timeout = true := by
      rw [h.timeout]
      exact Option.isSome_iff_ne_none.mpr htimeout
    rw [show next s (.expire id) = _ from if_pos htimeout]
    exact h.finish _
  · have hlistener : (s.routeWaiters.waiter id).listener = true := h.listener.trans hsignal
    rw [show next s (.abort id) = _ from if_pos hlistener]
    exact h.finish _

/-! ## Active routes -/

theorem mem_activeRoutes : route ∈ s.activeRoutes domain ↔
    route ∈ s.routes ∧ route.domain = domain ∧ route.key ∉ s.inactiveRoutes := by
  unfold activeRoutes
  simp

theorem getActiveRoute_eq_some : s.getActiveRoute domain = .ok (some route) ↔
    s.activeRoutes domain = [route] := by
  unfold getActiveRoute
  dsimp only
  constructor
  · intro h
    split at h
    · cases h
    · cases hactive : s.activeRoutes domain with
      | nil =>
        rw [hactive] at h
        cases h
      | cons first rest =>
        rw [hactive] at h
        cases rest with
        | nil => cases Except.ok.inj h; rfl
        | cons second rest =>
          rename_i hlength
          rw [hactive] at hlength
          exact absurd (Nat.succ_lt_succ (Nat.succ_pos rest.length)) hlength
  · intro h
    rw [h]
    rfl

theorem routes_handleRouteChange (s : PollingVerser2RunnerBroker)
    (event : VerserBrokerRouteChangeEvent) : (s.handleRouteChange event).routes = s.routes := by
  have hrecord : (s.record event).routes = s.routes := by
    unfold record
    split <;> rfl
  unfold handleRouteChange
  split
  · exact (sameRoutes_checkAll _).routes
  · exact (sameRoutes_checkAll _).routes
  · split
    · rfl
    · exact (sameRoutes_checkAll _).routes.trans hrecord
  · split
    · rfl
    · exact (sameRoutes_checkAll _).routes.trans hrecord

/-- Where the routes of an event are after it: a degraded one makes them inactive unless it is
repeated, and the others make them active. -/
theorem mem_inactiveRoutes_handleRouteChange {key : RouteName} :
    key ∈ (s.handleRouteChange event).inactiveRoutes ↔
      if key = event.key then
        event.type = .degraded ∧ (s.isRepeated event → event.key ∈ s.inactiveRoutes)
      else key ∈ s.inactiveRoutes := by
  have hrecord : (s.record event).inactiveRoutes = s.inactiveRoutes := by
    unfold record
    split <;> rfl
  unfold handleRouteChange
  cases htype : event.type with
  | added | changed =>
    rw [(sameRoutes_checkAll _).inactiveRoutes]
    by_cases hkey : key = event.key <;> simp [activate, hkey]
  | degraded =>
    by_cases hrepeated : s.isRepeated event
    · by_cases hkey : key = event.key <;> simp [hrepeated, hkey]
    · simp only [hrepeated, if_false]
      rw [(sameRoutes_checkAll _).inactiveRoutes]
      by_cases hkey : key = event.key <;> simp [deactivate, hrecord, hkey]
  | removed =>
    by_cases hrepeated : s.isRepeated event
    · by_cases hkey : key = event.key <;> simp [hrepeated, forget, activate, hkey]
    · simp only [hrepeated, if_false]
      rw [(sameRoutes_checkAll _).inactiveRoutes]
      by_cases hkey : key = event.key <;> simp [forget, activate, deactivate, hrecord, hkey]

theorem mem_activeRoutes_handleRouteChange (hroute : route ∈ s.routes) :
    route ∈ (s.handleRouteChange event).activeRoutes route.domain ↔
      if route.key = event.key then
        event.type = .degraded → s.isRepeated event ∧ event.key ∉ s.inactiveRoutes
      else route.key ∉ s.inactiveRoutes := by
  rw [mem_activeRoutes, routes_handleRouteChange, mem_inactiveRoutes_handleRouteChange]
  by_cases hkey : route.key = event.key <;> simp [hkey, hroute]

end PollingVerser2RunnerBroker

/-! ## The history of the routes -/

/-- A broker with what its events have said. -/
structure RouteHistory where
  broker : PollingVerser2RunnerBroker
  /-- the generations, with their keys, that no added or changed event has followed -/
  degraded : List (RouteName × ℕ)
  /-- the active routes that an event of an older generation has hidden -/
  lateHides : List Verser2RunnerRoute

namespace RouteHistory

open PollingVerser2RunnerBroker (Action mem_activeRoutes mem_activeRoutes_handleRouteChange
  routes_handleRouteChange mem_inactiveRoutes_handleRouteChange waitForRoute_routes
  sameRoutes_check getActiveRoute_eq_some)

def new (routes : List Verser2RunnerRoute) : RouteHistory := ⟨.new routes, [], []⟩

section Steps

variable (s : RouteHistory)

def degradedAfter (event : VerserBrokerRouteChangeEvent) : List (RouteName × ℕ) :=
  match event.type with
  | .added | .changed => s.degraded.filter (· ≠ (event.key, event.generation))
  | .degraded => (event.key, event.generation) :: s.degraded
  | .removed => s.degraded

/-- The event reports the loss of an older generation than that of the route. -/
def IsLate (event : VerserBrokerRouteChangeEvent) (route : Verser2RunnerRoute) : Prop :=
  (event.type = .degraded ∨ event.type = .removed) ∧ route.key = event.key ∧
    event.generation < route.generation

instance (event : VerserBrokerRouteChangeEvent) (route : Verser2RunnerRoute) :
    Decidable (IsLate event route) := inferInstanceAs (Decidable (_ ∧ _ ∧ _))

def hiddenBy (event : VerserBrokerRouteChangeEvent) : List Verser2RunnerRoute :=
  s.broker.routes.filter fun route => IsLate event route ∧
    route ∈ s.broker.activeRoutes route.domain ∧
    route ∉ (s.broker.handleRouteChange event).activeRoutes route.domain

def next (a : Action) : RouteHistory :=
  match a with
  | .routeChange event => ⟨s.broker.next a, s.degradedAfter event, s.lateHides ++ s.hiddenBy event⟩
  | _ => { s with broker := s.broker.next a }

end Steps

def run (routes : List Verser2RunnerRoute) (actions : List Action) : RouteHistory :=
  actions.foldl next (new routes)

/-- No newer route has been hidden by a late event, and no degraded generation can be selected. -/
structure Right (s : RouteHistory) : Prop where
  late : s.lateHides = []
  active : ∀ domain, ∀ route ∈ s.broker.activeRoutes domain,
    (route.key, route.generation) ∉ s.degraded

/-- What an event may say while the snapshot has a route of its key: that a generation is degraded
while the route is not newer, or is not active; and not that of the route itself, while that is active
and the event is taken for a repeated one. The others come when no other generation is degraded. -/
def EventInOrder (s : RouteHistory) (event : VerserBrokerRouteChangeEvent)
    (route : Verser2RunnerRoute) : Prop :=
  match event.type with
  | .added | .changed =>
    (route.key, route.generation) ∈ s.degraded → route.generation = event.generation
  | .removed => (route.key, route.generation) ∉ s.degraded
  | .degraded => event.key ∉ s.broker.inactiveRoutes →
      if s.broker.isRepeated event then route.generation ≠ event.generation
      else route.generation ≤ event.generation

/-- The events are in order for every route of the snapshot, and the snapshot does not come to have a
degraded generation of a route that is active. -/
def InOrder (s : RouteHistory) : Action → Prop
  | .routes routes => ∀ route ∈ routes, (route.key, route.generation) ∈ s.degraded →
      route.key ∈ s.broker.inactiveRoutes
  | .routeChange event => ∀ route ∈ s.broker.routes, route.key = event.key →
      s.EventInOrder event route
  | _ => True

instance (s : RouteHistory) (event : VerserBrokerRouteChangeEvent) (route : Verser2RunnerRoute) :
    Decidable (s.EventInOrder event route) :=
  match event with
  | ⟨.added, _, _, _, _⟩ => inferInstanceAs (Decidable (_ ∈ _ → _ = _))
  | ⟨.changed, _, _, _, _⟩ => inferInstanceAs (Decidable (_ ∈ _ → _ = _))
  | ⟨.removed, _, _, _, _⟩ => inferInstanceAs (Decidable (_ ∉ _))
  | ⟨.degraded, targetId, domain, generationId, generation⟩ =>
    inferInstanceAs (Decidable (_ ∉ s.broker.inactiveRoutes →
      if s.broker.isRepeated ⟨.degraded, targetId, domain, generationId, generation⟩
      then route.generation ≠ generation else route.generation ≤ generation))

instance (s : RouteHistory) (a : Action) : Decidable (s.InOrder a) :=
  match a with
  | .routes routes => inferInstanceAs (Decidable (∀ route ∈ routes, _ ∈ s.degraded → _ ∈ _))
  | .routeChange event => inferInstanceAs (Decidable (∀ route ∈ s.broker.routes,
      route.key = event.key → s.EventInOrder event route))
  | .waitForRoute _ _ _ | .tick _ | .expire _ | .abort _ => inferInstanceAs (Decidable True)

variable {s : RouteHistory} {event : VerserBrokerRouteChangeEvent}

theorem broker_next (s : RouteHistory) (a : Action) : (s.next a).broker = s.broker.next a := by
  cases a <;> rfl

theorem broker_run (routes : List Verser2RunnerRoute) (actions : List Action) :
    (run routes actions).broker = .run routes actions := by
  unfold run PollingVerser2RunnerBroker.run
  rw [show PollingVerser2RunnerBroker.new routes = (new routes).broker from rfl]
  generalize new routes = s
  induction actions generalizing s with
  | nil => rfl
  | cons a actions ih => exact (ih (s.next a)).trans (by rw [broker_next]; rfl)

/-! ## One step -/

theorem Right.inactive_of_degraded (R : s.Right) {route : Verser2RunnerRoute}
    (hroute : route ∈ s.broker.routes) (hdegraded : (route.key, route.generation) ∈ s.degraded) :
    route.key ∈ s.broker.inactiveRoutes := by
  by_contra hkey
  exact R.active route.domain route (mem_activeRoutes.mpr ⟨hroute, rfl, hkey⟩) hdegraded

theorem hiddenBy_eq_nil_iff (s : RouteHistory) (event : VerserBrokerRouteChangeEvent) :
    s.hiddenBy event = [] ↔
      (event.type = .degraded → ¬ s.broker.isRepeated event → event.key ∉ s.broker.inactiveRoutes →
        ∀ route ∈ s.broker.routes, route.key = event.key → route.generation ≤ event.generation) := by
  unfold hiddenBy
  rw [List.filter_eq_nil_iff]
  constructor
  · intro h htype hrepeated hactive route hroute hkey
    have hnot := h route hroute
    rw [decide_eq_true_eq] at hnot
    by_contra hlt
    apply hnot
    refine ⟨⟨.inl htype, hkey, Nat.lt_of_not_le hlt⟩, ?_, ?_⟩
    · rw [← hkey] at hactive
      exact mem_activeRoutes.mpr ⟨hroute, rfl, hactive⟩
    · rw [mem_activeRoutes_handleRouteChange hroute, if_pos hkey]
      exact fun h => hrepeated (h htype).1
  · intro h route hroute hhidden
    rw [decide_eq_true_eq] at hhidden
    obtain ⟨⟨-, hkey, hlt⟩, hbefore, hafter⟩ := hhidden
    have hactive := (mem_activeRoutes.mp hbefore).2.2
    rw [hkey] at hactive
    rw [mem_activeRoutes_handleRouteChange hroute, if_pos hkey] at hafter
    apply hafter
    intro htype
    refine ⟨?_, hactive⟩
    by_contra hrepeated
    exact absurd (h htype hrepeated hactive route hroute hkey) (Nat.not_le.mpr hlt)

section

variable (R : s.Right)
include R

theorem active_next_iff (event : VerserBrokerRouteChangeEvent) :
    (∀ domain, ∀ route ∈ (s.broker.handleRouteChange event).activeRoutes domain,
      (route.key, route.generation) ∉ s.degradedAfter event) ↔
      ∀ route ∈ s.broker.routes, route.key = event.key →
        (event.type = .degraded → s.broker.isRepeated event ∧ event.key ∉ s.broker.inactiveRoutes) →
        (route.key, route.generation) ∉ s.degradedAfter event := by
  constructor
  · intro h route hroute hkey hstays
    apply h route.domain route
    rwa [mem_activeRoutes_handleRouteChange hroute, if_pos hkey]
  · intro h domain route hafter
    obtain ⟨hroute, rfl, -⟩ := mem_activeRoutes.mp hafter
    rw [routes_handleRouteChange] at hroute
    rw [mem_activeRoutes_handleRouteChange hroute] at hafter
    by_cases hkey : route.key = event.key
    · rw [if_pos hkey] at hafter
      exact h route hroute hkey hafter
    · -- the event is about another key
      rw [if_neg hkey] at hafter
      have hbefore := R.active _ route (mem_activeRoutes.mpr ⟨hroute, rfl, hafter⟩)
      intro hdegraded
      apply hbefore
      unfold degradedAfter at hdegraded
      split at hdegraded
      · exact (List.mem_filter.mp hdegraded).1
      · exact (List.mem_filter.mp hdegraded).1
      · rcases List.mem_cons.mp hdegraded with heq | hdegraded
        · exact absurd (congrArg Prod.fst heq) hkey
        · exact hdegraded
      · exact hdegraded

theorem right_routeChange (event : VerserBrokerRouteChangeEvent) :
    (s.next (.routeChange event)).Right ↔
      (event.type = .degraded → ¬ s.broker.isRepeated event → event.key ∉ s.broker.inactiveRoutes →
        ∀ route ∈ s.broker.routes, route.key = event.key → route.generation ≤ event.generation) ∧
      ∀ route ∈ s.broker.routes, route.key = event.key →
        (event.type = .degraded → s.broker.isRepeated event ∧ event.key ∉ s.broker.inactiveRoutes) →
        (route.key, route.generation) ∉ s.degradedAfter event := by
  rw [← hiddenBy_eq_nil_iff, ← active_next_iff R]
  constructor
  · rintro ⟨hlate, hactive⟩
    exact ⟨(List.append_eq_nil_iff.mp hlate).2, hactive⟩
  · rintro ⟨hhidden, hactive⟩
    refine ⟨?_, hactive⟩
    show s.lateHides ++ s.hiddenBy event = []
    rw [R.late, hhidden]
    rfl

theorem right_not_degraded (htype : event.type ≠ .degraded) :
    (s.next (.routeChange event)).Right ↔ ∀ route ∈ s.broker.routes, route.key = event.key →
      (route.key, route.generation) ∉ s.degradedAfter event := by
  rw [right_routeChange R]
  constructor
  · exact fun h route hroute hkey => h.2 route hroute hkey fun hdegraded => absurd hdegraded htype
  · exact fun h => ⟨fun hdegraded => absurd hdegraded htype,
      fun route hroute hkey _ => h route hroute hkey⟩

theorem right_removed (htype : event.type = .removed) :
    (s.next (.routeChange event)).Right ↔ s.InOrder (.routeChange event) := by
  have hne : event.type ≠ .degraded := by
    rw [htype]
    exact nofun
  have hafter : s.degradedAfter event = s.degraded := by
    unfold degradedAfter
    rw [htype]
  have hok : ∀ route, s.EventInOrder event route ↔ (route.key, route.generation) ∉ s.degraded := by
    intro route
    unfold EventInOrder
    rw [htype]
  rw [right_not_degraded R hne, hafter]
  constructor
  · intro h route hroute hkey
    exact (hok route).mpr (h route hroute hkey)
  · intro h route hroute hkey
    exact (hok route).mp (h route hroute hkey)

theorem right_activated (htype : event.type = .added ∨ event.type = .changed) :
    (s.next (.routeChange event)).Right ↔ s.InOrder (.routeChange event) := by
  have hne : event.type ≠ .degraded := by
    rcases htype with h | h <;> rw [h] <;> exact nofun
  have hafter : s.degradedAfter event =
      s.degraded.filter (· ≠ (event.key, event.generation)) := by
    unfold degradedAfter
    rcases htype with h | h <;> rw [h]
  have hok : ∀ route, s.EventInOrder event route ↔
      ((route.key, route.generation) ∈ s.degraded → route.generation = event.generation) := by
    intro route
    unfold EventInOrder
    rcases htype with h | h <;> rw [h]
  rw [right_not_degraded R hne, hafter]
  constructor
  · intro h route hroute hkey
    rw [hok]
    intro hdegraded
    by_contra hgeneration
    apply h route hroute hkey
    exact List.mem_filter.mpr ⟨hdegraded, by simp [hgeneration]⟩
  · intro h route hroute hkey hdegraded
    obtain ⟨hdegraded, hother⟩ := List.mem_filter.mp hdegraded
    have hgeneration := (hok route).mp (h route hroute hkey) hdegraded
    simp [hkey, hgeneration] at hother

theorem right_degraded (htype : event.type = .degraded) :
    (s.next (.routeChange event)).Right ↔ s.InOrder (.routeChange event) := by
  have hafter : s.degradedAfter event = (event.key, event.generation) :: s.degraded := by
    unfold degradedAfter
    rw [htype]
  have hok : ∀ route, s.EventInOrder event route ↔ (event.key ∉ s.broker.inactiveRoutes →
      if s.broker.isRepeated event then route.generation ≠ event.generation
      else route.generation ≤ event.generation) := by
    intro route
    unfold EventInOrder
    rw [htype]
  rw [right_routeChange R, hafter]
  constructor
  · rintro ⟨hnewer, hstays⟩ route hroute hkey
    rw [hok]
    intro hactive
    by_cases hrepeated : s.broker.isRepeated event
    · rw [if_pos hrepeated]
      intro hgeneration
      apply hstays route hroute hkey fun _ => ⟨hrepeated, hactive⟩
      rw [hkey, hgeneration]
      exact List.mem_cons_self
    · rw [if_neg hrepeated]
      exact hnewer htype hrepeated hactive route hroute hkey
  · intro h
    refine ⟨fun _ hrepeated hactive route hroute hkey => ?_, fun route hroute hkey hstays => ?_⟩
    · have hle := (hok route).mp (h route hroute hkey) hactive
      rwa [if_neg hrepeated] at hle
    · obtain ⟨hrepeated, hactive⟩ := hstays htype
      have hne := (hok route).mp (h route hroute hkey) hactive
      rw [if_pos hrepeated] at hne
      intro hdegraded
      rcases List.mem_cons.mp hdegraded with heq | hdegraded
      · exact hne (congrArg Prod.snd heq)
      · -- the route was active, and so not degraded
        rw [← hkey] at hactive
        exact hactive (R.inactive_of_degraded hroute hdegraded)

theorem Right.of_same {broker : PollingVerser2RunnerBroker}
    (hroutes : broker.routes = s.broker.routes)
    (hinactive : broker.inactiveRoutes = s.broker.inactiveRoutes) : Right { s with broker } := by
  refine ⟨R.late, fun domain route hroute => R.active domain route ?_⟩
  rw [mem_activeRoutes] at hroute ⊢
  rwa [← hroutes, ← hinactive]

theorem right_routes (routes : List Verser2RunnerRoute) :
    (s.next (.routes routes)).Right ↔ s.InOrder (.routes routes) := by
  constructor
  · intro h route hroute hdegraded
    by_contra hkey
    exact h.active route.domain route (mem_activeRoutes.mpr ⟨hroute, rfl, hkey⟩) hdegraded
  · intro h
    refine ⟨R.late, fun domain route hactive hdegraded => ?_⟩
    obtain ⟨hroute, -, hkey⟩ := mem_activeRoutes.mp hactive
    exact hkey (h route hroute hdegraded)

theorem right_next_iff (a : Action) : (s.next a).Right ↔ s.InOrder a := by
  cases a with
  | routes routes => exact right_routes R routes
  | routeChange event =>
    cases htype : event.type with
    | added => exact right_activated R (.inl htype)
    | changed => exact right_activated R (.inr htype)
    | degraded => exact right_degraded R htype
    | removed => exact right_removed R htype
  | waitForRoute domain timeoutMs signal =>
    obtain ⟨hroutes, hinactive⟩ := waitForRoute_routes s.broker domain timeoutMs signal
    exact iff_of_true (R.of_same hroutes hinactive) trivial
  | tick id =>
    have hsame : s.broker.SameRoutes (s.broker.next (.tick id)) := by
      show s.broker.SameRoutes (if _ then s.broker.check id else s.broker)
      split
      · exact sameRoutes_check s.broker id
      · exact .refl _
    exact iff_of_true (R.of_same hsame.routes hsame.inactiveRoutes) trivial
  | expire id =>
    have hsame : s.broker.SameRoutes (s.broker.next (.expire id)) := by
      show s.broker.SameRoutes (if _ then s.broker.finish id _ else s.broker)
      split <;> exact ⟨rfl, rfl, rfl, rfl⟩
    exact iff_of_true (R.of_same hsame.routes hsame.inactiveRoutes) trivial
  | abort id =>
    have hsame : s.broker.SameRoutes (s.broker.next (.abort id)) := by
      show s.broker.SameRoutes (if _ then s.broker.finish id _ else s.broker)
      split <;> exact ⟨rfl, rfl, rfl, rfl⟩
    exact iff_of_true (R.of_same hsame.routes hsame.inactiveRoutes) trivial

end

theorem right_new (routes : List Verser2RunnerRoute) : (new routes).Right :=
  ⟨rfl, nofun⟩

/-! ## What is selected -/

theorem Right.getActiveRoute (R : s.Right) {domain : RouteName} {route : Verser2RunnerRoute}
    (h : s.broker.getActiveRoute domain = .ok (some route)) :
    (route.key, route.generation) ∉ s.degraded := by
  rw [getActiveRoute_eq_some] at h
  apply R.active domain
  rw [h]
  exact List.mem_singleton_self route

theorem Right.selected_of_late (R : (s.next (.routeChange event)).Right) {domain : RouteName}
    {route : Verser2RunnerRoute} (h : s.broker.getActiveRoute domain = .ok (some route))
    (hlate : IsLate event route) :
    (s.next (.routeChange event)).broker.getActiveRoute domain = .ok (some route) := by
  rw [getActiveRoute_eq_some] at h ⊢
  have hactive : route ∈ s.broker.activeRoutes domain := by
    rw [h]
    exact List.mem_singleton_self route
  obtain ⟨hroute, rfl, hkey⟩ := mem_activeRoutes.mp hactive
  have hstays : route ∈ (s.broker.handleRouteChange event).activeRoutes route.domain := by
    have hnone : s.hiddenBy event = [] := (List.append_eq_nil_iff.mp R.late).2
    unfold hiddenBy at hnone
    rw [List.filter_eq_nil_iff] at hnone
    by_contra hhidden
    exact hnone route hroute (decide_eq_true ⟨hlate, hactive, hhidden⟩)
  have hkeys : ∀ key, key ∈ (s.broker.handleRouteChange event).inactiveRoutes ↔
      key ∈ s.broker.inactiveRoutes := by
    intro key
    by_cases heq : key = event.key
    · rw [heq, ← hlate.2.1]
      exact iff_of_false (mem_activeRoutes.mp hstays).2.2 hkey
    · rw [mem_inactiveRoutes_handleRouteChange, if_neg heq]
  rw [← h]
  show (s.broker.handleRouteChange event).activeRoutes route.domain = _
  unfold PollingVerser2RunnerBroker.activeRoutes
  rw [routes_handleRouteChange]
  simp only [hkeys]

/-! ## Whole runs -/

/-- Late events never change which newer route is selected, and what is selected is not degraded. -/
structure SelectsRight (routes : List Verser2RunnerRoute) (actions : List Action) : Prop where
  late : ∀ before event after, actions = before ++ .routeChange event :: after →
    ∀ domain route, (run routes before).broker.getActiveRoute domain = .ok (some route) →
      IsLate event route → (run routes (before ++ [.routeChange event])).broker.getActiveRoute domain =
        .ok (some route)
  degraded : ∀ before after, actions = before ++ after →
    ∀ domain route, (run routes before).broker.getActiveRoute domain = .ok (some route) →
      (route.key, route.generation) ∉ (run routes before).degraded

theorem run_append_singleton (routes : List Verser2RunnerRoute) (actions : List Action)
    (a : Action) : run routes (actions ++ [a]) = (run routes actions).next a := by
  unfold run
  rw [List.foldl_append]
  rfl

theorem selectsRight_of_always {routes : List Verser2RunnerRoute} {actions : List Action}
    (h : System.Always next Right (new routes) actions) : SelectsRight routes actions := by
  refine ⟨?_, ?_⟩
  · rintro before event after rfl domain route hroute hlate
    rw [run_append_singleton]
    have hafter : System.Always next Right ((run routes before).next (.routeChange event)) after :=
      (System.always_append h).2
    exact (System.always_head hafter).selected_of_late hroute hlate
  · rintro before after rfl domain route hroute
    exact (System.always_head (System.always_append h)).getActiveRoute hroute

/-- A call of `waitForRoute` waits or has been settled once and for all. Newer routes stay active and
degraded generations inactive exactly in the runs that are in order, and so does what is selected. -/
theorem generations_in_order (routes : List Verser2RunnerRoute) (actions : List Action) :
    (∀ id, id < (run routes actions).broker.routeWaiters.next →
      (run routes actions).broker.Waiting id ∨
        ∃ outcome, ∀ later, (run routes (actions ++ later)).broker.routeWaiters.Settled id outcome) ∧
    (System.Always next Right (new routes) actions ↔ System.Meets next InOrder (new routes) actions) ∧
    (System.Meets next InOrder (new routes) actions → SelectsRight routes actions) := by
  have hiff : System.Always next Right (new routes) actions ↔
      System.Meets next InOrder (new routes) actions :=
    System.always_iff_meets (I := Right) (A := fun _ => True)
      (fun s a _ R _ => right_next_iff R a) (fun s a _ R _ hok => (right_next_iff R a).mpr hok)
      (right_new routes) (right_new routes) actions (fun _ _ => trivial)
  refine ⟨fun id hid => ?_, hiff, fun h => selectsRight_of_always (hiff.mpr h)⟩
  simp only [broker_run] at hid ⊢
  have S := PollingVerser2RunnerBroker.sound_run routes actions
  rcases S.waiters id hid with hp | ⟨outcome, hs⟩
  · exact .inl (.of_pending hp)
  · refine .inr ⟨outcome, fun later => ?_⟩
    have hrun : PollingVerser2RunnerBroker.run routes (actions ++ later) =
        later.foldl PollingVerser2RunnerBroker.next (.run routes actions) := List.foldl_append ..
    rw [hrun]
    exact (PollingVerser2RunnerBroker.goes_foldl S later).settled id outcome hid hs

/-- A generation that is degraded, its successor, and a removal of the first that comes late. -/
theorem generations_in_order_reconnected : SelectsRight [⟨['t'], ['d'], 1⟩]
    [.routeChange ⟨.degraded, ['t'], ['d'], some ['1'], 1⟩, .routes [⟨['t'], ['d'], 2⟩],
      .routeChange ⟨.changed, ['t'], ['d'], some ['2'], 2⟩,
      .routeChange ⟨.removed, ['t'], ['d'], some ['1'], 1⟩] :=
  (generations_in_order _ _).2.2 ⟨by decide, by decide, by decide, by decide, trivial⟩

/-- The new generation is active, and then the loss of the old one is reported late. -/
theorem lateDegraded_not_selectsRight : ¬ SelectsRight [⟨['t'], ['d'], 2⟩]
    [.routeChange ⟨.changed, ['t'], ['d'], some ['2'], 2⟩,
      .routeChange ⟨.degraded, ['t'], ['d'], some ['1'], 1⟩] := by
  intro h
  have hselected := h.late [.routeChange ⟨.changed, ['t'], ['d'], some ['2'], 2⟩]
    ⟨.degraded, ['t'], ['d'], some ['1'], 1⟩ [] rfl ['d'] ⟨['t'], ['d'], 2⟩ rfl (by decide)
  exact absurd (Except.ok.inj hselected) (by decide)

end RouteHistory

end TransformHub.Host

import TransformHub.Host.ExposeRoutes
import TransformHub.Host.RegistryInvariant

/-!
# Runs of exposed paths

A path is registered and revoked by the readiness of controllers; everything else only takes paths
away (`Less`).
-/

namespace TransformHub.Host.ExposeRoutes

open Instances CsiController

open InstancesRegistry (NoEmptyPath)

theorem truthy_eq_some {text : Option String} {path : String}
    (h : CsiController.truthy text = some path) : text = some path ∧ path ≠ "" := by
  unfold CsiController.truthy at h
  split at h
  · cases h
  next hne =>
    refine ⟨h, ?_⟩
    rintro rfl
    exact hne h

theorem truthy_of_ne {text : Option String} (h : text ≠ some "") :
    CsiController.truthy text = text := by
  unfold CsiController.truthy
  split
  · exact absurd rfl h
  · rfl

namespace HostRoutes

/-! ## Paths in order -/

def Exposes (s : HostRoutes) (path id : String) : Prop :=
  ∃ ids, s.registry.exposePathMap.get? path = some ids ∧ id ∈ ids

structure Routed (s : HostRoutes) : Prop where
  /-- a path is registered while the controller of its instance is ready and not terminal -/
  live : ∀ path id, s.Exposes path id → ∃ i x, s.registry.get? id = some i ∧
    s.controllers[i]? = some x ∧ x.readinessState = .ready ∧ x.terminal = false
  /-- an instance has one path at most -/
  one : ∀ path path' id, s.Exposes path id → s.Exposes path' id → path = path'

def Keeps (csi : ℕ → ICSI) (s : HostRoutes) : Action → Prop
  | .create _ _ _ _ => ∀ path, ¬ s.Exposes path (csi s.controllers.length).id
  | .signal i e exposePath => ∀ x, s.controllers[i]? = some x →
      -- no other path leads to the instance of a READY, whose controller is ready and not ended
      (∀ path, x.exposed e exposePath = some path →
        (∀ path', s.Exposes path' (csi i).id → path' = path) ∧
          ∃ j y, s.registry.get? (csi i).id = some j ∧ s.controllers[j]? = some y ∧
            (j = i ∨ y.readinessState = .ready) ∧ y.terminal = false) ∧
      (s.registry.get? (csi i).id = some i → ∀ path, s.Exposes path (csi i).id →
        -- a controller that fails exposes the path, and one that a path leads to does not end
        (x.failsReadiness e = true → x.expose = some path) ∧ e.ends x.toCSIController = false)
  | .require _ => True

structure Inv (csi : ℕ → ICSI) (s : HostRoutes) : Prop where
  paths : NoEmptyPath s.registry.exposePathMap
  stored : ∀ id i, s.registry.get? id = some i → (csi i).id = id ∧ i < s.controllers.length
  expose : ∀ (i : ℕ) (x : ExposingController), s.controllers[i]? = some x → x.expose ≠ some ""

variable {csi : ℕ → ICSI} {s t u : HostRoutes} {path path' id id' : String} {i : ℕ}
  {x : ExposingController} {e : Event} {exposePath : Option String}

/-! ## What the operations do to the paths -/

theorem exposes_onRPCExpose :
    (s.onRPCExpose path id).Exposes path' id' ↔
      s.Exposes path' id' ∨ (path' = path ∧ id' = id) := by
  unfold Exposes onRPCExpose InstancesRegistry.registerRpc
  simp only [OrderedMap.get?_set]
  by_cases hpath : path = path'
  · subst hpath
    simp only [if_true, true_and, Option.some.injEq, exists_eq_left']
    cases hget : s.registry.exposePathMap.get? path with
    | none => simp
    | some ids =>
      simp only [Option.getD_some, Option.some.injEq, exists_eq_left']
      split_ifs with hmem
      · constructor
        · exact .inl
        · rintro (hold | rfl)
          · exact hold
          · simpa using hmem
      · simp
  · simp only [if_neg hpath]
    constructor
    · exact .inl
    · rintro (hold | ⟨hnew, -⟩)
      · exact hold
      · exact absurd hnew.symm hpath

theorem exposes_onRPCExposeRevoked :
    (s.onRPCExposeRevoked path id).Exposes path' id' ↔
      s.Exposes path' id' ∧ ¬ (path' = path ∧ id' = id) := by
  unfold Exposes onRPCExposeRevoked InstancesRegistry.unregisterRpc
  simp only [InstancesRegistry.get?_unexpose]
  by_cases hpath : path = path'
  · subst hpath
    simp only [if_true, true_and]
    constructor
    · rintro ⟨ids, hget, hmem⟩
      obtain ⟨hmap, -⟩ := Option.filter_eq_some_iff.mp hget
      obtain ⟨ids', hget', rfl⟩ := Option.map_eq_some_iff.mp hmap
      simp only [List.mem_filter, ne_eq, decide_not, Bool.not_eq_true', decide_eq_false_iff_not]
        at hmem
      exact ⟨⟨ids', hget', hmem.1⟩, hmem.2⟩
    · rintro ⟨⟨ids, hget, hmem⟩, hne⟩
      have hkept : id' ∈ ids.filter (· ≠ id) := by simp [hmem, hne]
      refine ⟨ids.filter (· ≠ id), ?_, hkept⟩
      rw [hget, Option.map_some, Option.filter_some, if_pos]
      rw [List.isEmpty_eq_false_iff.mpr (List.ne_nil_of_mem hkept)]
      rfl
  · simp only [if_neg hpath]
    constructor
    · intro hold
      exact ⟨hold, fun hnew => hpath hnew.1.symm⟩
    · exact And.left

/-- Paths and controllers are taken from the store, never the controller of a path that stays. -/
structure Less (s t : HostRoutes) : Prop where
  paths : NoEmptyPath t.registry.exposePathMap
  exposes : ∀ path id, t.Exposes path id →
    s.Exposes path id ∧ t.registry.get? id = s.registry.get? id
  stored : ∀ id i, t.registry.get? id = some i → s.registry.get? id = some i
  controllers : t.controllers = s.controllers

theorem Less.refl (h : NoEmptyPath s.registry.exposePathMap) : s.Less s where
  paths := h
  exposes _ _ hexposes := ⟨hexposes, rfl⟩
  stored _ _ := id
  controllers := rfl

theorem Less.trans (h : s.Less t) (h' : t.Less u) : s.Less u where
  paths := h'.paths
  exposes path id hexposes := by
    obtain ⟨hmiddle, hget'⟩ := h'.exposes path id hexposes
    obtain ⟨hfirst, hget⟩ := h.exposes path id hmiddle
    exact ⟨hfirst, hget'.trans hget⟩
  stored id i hget := h.stored id i (h'.stored id i hget)
  controllers := h'.controllers.trans h.controllers

theorem Less.routed (h : s.Less t) (hrouted : s.Routed) : t.Routed where
  live path id hexposes := by
    obtain ⟨hold, hget⟩ := h.exposes path id hexposes
    rw [hget, h.controllers]
    exact hrouted.live path id hold
  one path path' id hexposes hexposes' :=
    hrouted.one path path' id (h.exposes path id hexposes).1 (h.exposes path' id hexposes').1

theorem Less.inv (h : s.Less t) (hinv : s.Inv csi) : t.Inv csi where
  paths := h.paths
  stored id i hget := by
    rw [h.controllers]
    exact hinv.stored id i (h.stored id i hget)
  expose := by
    rw [h.controllers]
    exact hinv.expose

theorem less_revoke (h : NoEmptyPath s.registry.exposePathMap) (x : ExposingController)
    (id : String) : s.Less (s.revoke x id) := by
  unfold revoke
  cases CsiController.truthy x.expose with
  | none => exact .refl h
  | some path =>
    refine ⟨h.unexpose path id, fun path' id' hexposes => ?_, fun _ _ => fun h => h, rfl⟩
    exact ⟨(exposes_onRPCExposeRevoked.mp hexposes).1, rfl⟩

section

variable (csi) (h : NoEmptyPath s.registry.exposePathMap)
include csi h

theorem less_delete (id : String) : s.Less { s with registry := s.registry.delete csi id } := by
  obtain ⟨hstore, hpaths⟩ := InstancesRegistry.delete_store csi s.registry id
  have hget (id' : String) : (s.registry.delete csi id).get? id' =
      if id = id' then none else s.registry.get? id' := by
    rw [InstancesStore.get?, hstore, InstancesStore.controllers_delete, OrderedMap.get?_delete]
    rfl
  refine ⟨?_, fun path id' hexposes => ?_, fun id' i hi => ?_, rfl⟩
  · show NoEmptyPath (s.registry.delete csi id).exposePathMap
    rw [hpaths]
    exact h.unexposeAll id
  · obtain ⟨ids, hids, hmem⟩ := hexposes
    have hleft : (InstancesRegistry.unexposeAll id s.registry.exposePathMap).get? path =
        some ids := by
      rw [← hpaths]
      exact hids
    have hne : id ≠ id' := by
      rintro rfl
      exact InstancesRegistry.unexposed_unexposeAll h id path ids hleft hmem
    obtain ⟨-, ids', hids', hsub⟩ :=
      (InstancesRegistry.unexposeLoop id s.registry.exposePathMap.keys h).2 path ids hleft
    refine ⟨⟨ids', hids', hsub hmem⟩, ?_⟩
    show (s.registry.delete csi id).get? id' = _
    rw [hget, if_neg hne]
  · have hi : (s.registry.delete csi id).get? id' = some i := hi
    rw [hget] at hi
    split_ifs at hi
    exact hi

theorem less_cleanupRequiredStartupInstance (id : String) :
    s.Less (s.cleanupRequiredStartupInstance csi id) := by
  unfold cleanupRequiredStartupInstance
  split
  · split
    · exact .refl h
    next x _ =>
      have hrevoke := less_revoke h x id
      exact hrevoke.trans (less_delete csi hrevoke.paths id)
  · exact .refl h

theorem less_removeManifest (i : ℕ)
    (reason : ManifestRemovalReason) :
    s.Less { s with registry := (s.registry.removeManifest csi i reason).1 } := by
  obtain ⟨hstore, hpaths⟩ :=
    InstancesRegistry.sameStore_removeManifest csi s.registry i reason
  have hget (id : String) : (s.registry.removeManifest csi i reason).1.get? id =
      s.registry.get? id := by
    rw [InstancesStore.get?, hstore]
    rfl
  refine ⟨?_, fun path id hexposes => ?_, fun id j hj => ?_, rfl⟩
  · show NoEmptyPath (s.registry.removeManifest csi i reason).1.exposePathMap
    rw [hpaths]
    exact h
  · obtain ⟨ids, hids, hmem⟩ := hexposes
    refine ⟨⟨ids, ?_, hmem⟩, hget id⟩
    rw [← hpaths]
    exact hids
  · rw [← hget]
    exact hj

theorem less_told (i : ℕ)
    (x : ExposingController) (emission : Emission) : s.Less (told csi i x s emission) := by
  cases emission with
  | terminated code =>
    simp only [told, handleDispatcherTerminatedEvent]
    split_ifs
    · exact .refl h
    · have hremove := less_removeManifest csi h i .instanceEnded
      exact hremove.trans (less_cleanupRequiredStartupInstance csi hremove.paths _)
    · exact .refl h
  | «end» code =>
    have hhandler : s.Less (s.handleDispatcherEndEvent csi i) := by
      unfold handleDispatcherEndEvent
      split_ifs
      · exact .refl h
      · exact less_cleanupRequiredStartupInstance csi h _
    simp only [told, onEnd]
    split_ifs
    · exact hhandler.trans (less_delete csi hhandler.paths _)
    · exact hhandler

theorem less_foldl_told (i : ℕ)
    (x : ExposingController) (emissions : List Emission) :
    s.Less (emissions.foldl (told csi i x) s) := by
  induction emissions generalizing s with
  | nil => exact .refl h
  | cons emission emissions ih =>
    have htold := less_told csi h i x emission
    exact htold.trans (ih htold.paths)

end

/-! ## What an event does to its controller -/

theorem exposed_eq_some {path : String} (h : x.exposed e exposePath = some path) :
    e = .readiness true ∧ x.hooked = true ∧ x.readinessState ≠ .errored ∧ x.endEmitted = false ∧
      path ≠ "" := by
  unfold ExposingController.exposed at h
  split at h
  · split_ifs at h with hignored
    simp only [not_or, Bool.not_eq_false, Bool.not_eq_true] at hignored
    obtain ⟨hhooked, herrored, hended⟩ := hignored
    exact ⟨rfl, hhooked, herrored, hended, (truthy_eq_some h).2⟩
  · cases h

theorem controllerAfter_exposed (h : x.exposed e exposePath = some path) :
    let x' := controllerAfter x e exposePath
    x'.readinessState = .ready ∧ x'.terminal = x.terminal ∧ x'.emitted = x.emitted ∧
      x'.expose = some path := by
  obtain ⟨rfl, hhooked, herrored, hended, -⟩ := exposed_eq_some h
  have hnext := next_readiness hhooked herrored hended true
  dsimp only [controllerAfter]
  rw [hnext, exposeAfter, h]
  exact ⟨rfl, rfl, rfl, rfl⟩

theorem controllerAfter_fails (h : x.failsReadiness e = true) :
    let x' := controllerAfter x e exposePath
    x'.readinessState = .errored ∧ x'.emitted = x.emitted := by
  obtain ⟨-, hemitted, herrored⟩ := failReadiness_keeps x.toCSIController
  cases e with
  | readiness ready =>
    cases ready with
    | true => cases h
    | false =>
      simp only [ExposingController.failsReadiness, Bool.and_eq_true, Bool.not_eq_true',
        decide_eq_true_eq] at h
      obtain ⟨⟨hhooked, hstate⟩, hended⟩ := h
      dsimp only [controllerAfter]
      rw [next_readiness hhooked hstate hended false]
      exact ⟨herrored, hemitted⟩
  | readinessTimeout =>
    simp only [controllerAfter, h, if_true]
    exact ⟨herrored, hemitted⟩
  | connect | connectFailed | disconnect | ping | pang | alive | sequenceCompleted
  | sequenceStopped | stop | kill | exited | cleaned | removed | transition | resume => cases h

theorem controllerAfter_quiet (hexposed : x.exposed e exposePath = none)
    (hfails : x.failsReadiness e = false) (hready : x.readinessState = .ready)
    (hlive : x.terminal = false) :
    let x' := controllerAfter x e exposePath
    x'.readinessState = .ready ∧ x'.terminal = e.ends x.toCSIController ∧
      x'.emitted = x.emitted := by
  have hother (he : e.aboutReadiness = false) :
      let x' := CsiController.next x.toCSIController e
      x'.readinessState = .ready ∧ x'.terminal = e.ends x.toCSIController ∧
        x'.emitted = x.emitted := by
    refine ⟨?_, terminal_next hlive he, emitted_next hlive he⟩
    have hafter := after_next hlive he
    generalize e.ends x.toCSIController = ends at hafter
    cases hafter with
    | calm hcalm => exact hcalm.readiness.trans hready
    | ended hended => exact hended.readiness.trans hready
  cases e with
  | readiness ready =>
    have hended : x.endEmitted = false := by
      unfold CsiController.CSIController.terminal at hlive
      simp only [Bool.or_eq_false_iff] at hlive
      exact hlive.1.1
    cases hhooked : x.hooked with
    | false =>
      dsimp only [controllerAfter]
      rw [next_unhooked hhooked ready]
      exact ⟨hready, hlive, rfl⟩
    | true =>
      cases ready with
      | false => simp [ExposingController.failsReadiness, hhooked, hready, hended] at hfails
      | true =>
        have herrored : x.readinessState ≠ .errored := by
          rw [hready]
          decide
        dsimp only [controllerAfter]
        rw [next_readiness hhooked herrored hended true]
        exact ⟨rfl, hlive, rfl⟩
  | readinessTimeout =>
    dsimp only [controllerAfter]
    rw [hfails]
    exact ⟨hready, hlive, rfl⟩
  | connect | connectFailed | disconnect | ping | pang | alive | sequenceCompleted
  | sequenceStopped | stop | kill | exited | cleaned | removed | transition | resume =>
    exact hother rfl

/-! ## Events of controllers -/

theorem controllers_reroute : (s.reroute csi i x e exposePath).controllers = s.controllers := by
  unfold reroute revoke
  split
  · rfl
  · split
    · split <;> rfl
    · rfl

/-- The routes and the controller after an event, before anyone is told of what it emitted. -/
def signalled (csi : ℕ → ICSI) (s : HostRoutes) (i : ℕ) (x : ExposingController) (e : Event)
    (exposePath : Option String) : HostRoutes :=
  { s.reroute csi i x e exposePath with
    controllers := s.controllers.set i (controllerAfter x e exposePath) }

theorem signal_eq (h : s.controllers[i]? = some x) :
    s.signal csi i e exposePath =
      ((controllerAfter x e exposePath).emitted.drop x.emitted.length).foldl
        (told csi i (controllerAfter x e exposePath)) (signalled csi s i x e exposePath) := by
  unfold signal signalled
  rw [h]
  dsimp only
  rw [controllers_reroute]

theorem signal_eq_signalled (h : s.controllers[i]? = some x)
    (hemitted : (controllerAfter x e exposePath).emitted = x.emitted) :
    s.signal csi i e exposePath = signalled csi s i x e exposePath := by
  rw [signal_eq h, hemitted, List.drop_length, List.foldl_nil]

theorem getElem?_signalled (h : s.controllers[i]? = some x) (j : ℕ) :
    (signalled csi s i x e exposePath).controllers[j]? =
      if j = i then some (controllerAfter x e exposePath) else s.controllers[j]? := by
  obtain ⟨hlt, -⟩ := List.getElem?_eq_some_iff.mp h
  show (s.controllers.set i _)[j]? = _
  split_ifs with hj
  · rw [hj, List.getElem?_set_self hlt]
  · exact List.getElem?_set_ne (Ne.symm hj)

theorem reroute_exposed {path : String} (h : x.exposed e exposePath = some path) :
    s.reroute csi i x e exposePath = s.onRPCExpose path (csi i).id := by
  unfold reroute
  rw [h]

theorem reroute_fails (h : x.failsReadiness e = true) :
    s.reroute csi i x e exposePath = s.revoke x (csi i).id := by
  unfold reroute
  cases hexposed : x.exposed e exposePath with
  | none =>
    dsimp only
    rw [if_pos h]
  | some path =>
    obtain ⟨rfl, -⟩ := exposed_eq_some hexposed
    cases h

theorem reroute_quiet (hexposed : x.exposed e exposePath = none)
    (hfails : x.failsReadiness e = false) : s.reroute csi i x e exposePath = s := by
  unfold reroute
  rw [hexposed, hfails]
  rfl

/-- A READY keeps the paths in order exactly if no other one leads to its instance and the
controller of the instance is in order. -/
theorem routed_exposed_iff {path : String} (h : s.controllers[i]? = some x) (hrouted : s.Routed)
    (hexposed : x.exposed e exposePath = some path) :
    (s.signal csi i e exposePath).Routed ↔
      (∀ path', s.Exposes path' (csi i).id → path' = path) ∧
        ∃ j y, s.registry.get? (csi i).id = some j ∧ s.controllers[j]? = some y ∧
          (j = i ∨ y.readinessState = .ready) ∧ y.terminal = false := by
  obtain ⟨hready, hterminal, hemitted, -⟩ := controllerAfter_exposed hexposed
  have hstore : (signalled csi s i x e exposePath).registry =
      (s.onRPCExpose path (csi i).id).registry := by
    show (s.reroute csi i x e exposePath).registry = _
    rw [reroute_exposed hexposed]
  have hget (id : String) : (signalled csi s i x e exposePath).registry.get? id =
      s.registry.get? id := by
    rw [hstore]
    rfl
  have hexposes (path' id' : String) :
      (signalled csi s i x e exposePath).Exposes path' id' ↔
        s.Exposes path' id' ∨ (path' = path ∧ id' = (csi i).id) := by
    rw [← exposes_onRPCExpose]
    unfold Exposes
    rw [hstore]
  have hnew : (signalled csi s i x e exposePath).Exposes path (csi i).id :=
    (hexposes _ _).mpr (.inr ⟨rfl, rfl⟩)
  rw [signal_eq_signalled h hemitted]
  constructor
  · intro hafter
    refine ⟨fun path' hpath' => hafter.one _ _ _ ((hexposes _ _).mpr (.inl hpath')) hnew, ?_⟩
    obtain ⟨j, y, hj, hy, hyready, hylive⟩ := hafter.live path (csi i).id hnew
    rw [hget] at hj
    rw [getElem?_signalled h] at hy
    split_ifs at hy with hij
    · cases hy
      rw [hterminal] at hylive
      exact ⟨j, x, hj, hij ▸ h, .inl hij, hylive⟩
    · exact ⟨j, y, hj, hy, .inr hyready, hylive⟩
  · rintro ⟨hone, j, y, hj, hy, hyready, hylive⟩
    -- a controller that was in order still is
    have hkeeps {k : ℕ} {z : ExposingController} (hz : s.controllers[k]? = some z)
        (hzready : k = i ∨ z.readinessState = .ready) (hzlive : z.terminal = false) :
        ∃ z', (signalled csi s i x e exposePath).controllers[k]? = some z' ∧
          z'.readinessState = .ready ∧ z'.terminal = false := by
      by_cases hki : k = i
      · subst hki
        cases h.symm.trans hz
        refine ⟨_, (getElem?_signalled h k).trans (if_pos rfl), hready, ?_⟩
        rw [hterminal]
        exact hzlive
      · refine ⟨z, (getElem?_signalled h k).trans ((if_neg hki).trans hz), ?_, hzlive⟩
        exact hzready.resolve_left hki
    refine ⟨fun path' id' hpath' => ?_, fun path₁ path₂ id' h₁ h₂ => ?_⟩
    · rcases (hexposes _ _).mp hpath' with hold | ⟨rfl, rfl⟩
      · obtain ⟨k, z, hk, hz, hzready, hzlive⟩ := hrouted.live path' id' hold
        obtain ⟨z', hz', hready', hlive'⟩ := hkeeps hz (.inr hzready) hzlive
        exact ⟨k, z', (hget id').trans hk, hz', hready', hlive'⟩
      · obtain ⟨y', hy', hready', hlive'⟩ := hkeeps hy hyready hylive
        exact ⟨j, y', (hget _).trans hj, hy', hready', hlive'⟩
    · rcases (hexposes _ _).mp h₁ with hold₁ | ⟨rfl, rfl⟩
      · rcases (hexposes _ _).mp h₂ with hold₂ | ⟨rfl, rfl⟩
        · exact hrouted.one path₁ path₂ id' hold₁ hold₂
        · exact hone path₁ hold₁
      · rcases (hexposes _ _).mp h₂ with hold₂ | ⟨rfl, -⟩
        · exact (hone path₂ hold₂).symm
        · rfl

theorem routed_fails_iff (hinv : s.Inv csi) (h : s.controllers[i]? = some x) (hrouted : s.Routed)
    (hfails : x.failsReadiness e = true) :
    (s.signal csi i e exposePath).Routed ↔
      (s.registry.get? (csi i).id = some i →
        ∀ path, s.Exposes path (csi i).id → x.expose = some path) := by
  obtain ⟨herrored, hemitted⟩ := @controllerAfter_fails x e exposePath hfails
  have hless := less_revoke hinv.paths x (csi i).id
  have hstore : (signalled csi s i x e exposePath).registry =
      (s.revoke x (csi i).id).registry := by
    show (s.reroute csi i x e exposePath).registry = _
    rw [reroute_fails hfails]
  have hget (id : String) : (signalled csi s i x e exposePath).registry.get? id =
      s.registry.get? id := by
    rw [hstore]
    unfold revoke
    split <;> rfl
  have hexposes (path' id' : String) :
      (signalled csi s i x e exposePath).Exposes path' id' ↔
        s.Exposes path' id' ∧ ¬ (x.expose = some path' ∧ id' = (csi i).id) := by
    have hrevoke : (signalled csi s i x e exposePath).Exposes path' id' ↔
        (s.revoke x (csi i).id).Exposes path' id' := by
      unfold Exposes
      rw [hstore]
    rw [hrevoke, revoke, truthy_of_ne (hinv.expose i x h)]
    cases x.expose with
    | none => simp
    | some path =>
      dsimp only
      rw [exposes_onRPCExposeRevoked]
      simp only [Option.some.injEq, eq_comm]
  rw [signal_eq_signalled h hemitted]
  constructor
  · intro hafter hstored path hpath
    by_contra hother
    obtain ⟨j, y, hj, hy, hyready, -⟩ :=
      hafter.live path (csi i).id ((hexposes _ _).mpr ⟨hpath, fun heq => hother heq.1⟩)
    rw [hget, hstored] at hj
    cases hj
    rw [getElem?_signalled h, if_pos rfl] at hy
    cases hy
    rw [herrored] at hyready
    cases hyready
  · intro hkeeps
    refine ⟨fun path' id' hpath' => ?_, fun path₁ path₂ id' h₁ h₂ => ?_⟩
    · obtain ⟨hold, hne⟩ := (hexposes _ _).mp hpath'
      obtain ⟨j, y, hj, hy, hyready, hylive⟩ := hrouted.live path' id' hold
      refine ⟨j, y, (hget id').trans hj, ?_, hyready, hylive⟩
      rw [getElem?_signalled h, if_neg, hy]
      rintro rfl
      obtain ⟨rfl, -⟩ := hinv.stored id' j hj
      exact hne ⟨hkeeps hj path' hold, rfl⟩
    · exact hrouted.one path₁ path₂ id' ((hexposes _ _).mp h₁).1 ((hexposes _ _).mp h₂).1

theorem routed_quiet_iff (hinv : s.Inv csi) (h : s.controllers[i]? = some x) (hrouted : s.Routed)
    (hexposed : x.exposed e exposePath = none) (hfails : x.failsReadiness e = false) :
    (s.signal csi i e exposePath).Routed ↔
      (s.registry.get? (csi i).id = some i →
        ∀ path, s.Exposes path (csi i).id → e.ends x.toCSIController = false) := by
  have hstore : (signalled csi s i x e exposePath).registry = s.registry := by
    show (s.reroute csi i x e exposePath).registry = _
    rw [reroute_quiet hexposed hfails]
  have hexposes (path' id' : String) :
      (signalled csi s i x e exposePath).Exposes path' id' ↔ s.Exposes path' id' := by
    unfold Exposes
    rw [hstore]
  have hquiet : x.readinessState = .ready → x.terminal = false → _ :=
    controllerAfter_quiet hexposed hfails
  constructor
  · intro hafter hstored path hpath
    obtain ⟨j, y, hj, hy, hyready, hylive⟩ := hrouted.live path (csi i).id hpath
    cases hstored.symm.trans hj
    cases h.symm.trans hy
    obtain ⟨-, hterminal, hemitted⟩ := hquiet hyready hylive
    rw [signal_eq_signalled h hemitted] at hafter
    obtain ⟨k, z, hk, hz, -, hzlive⟩ := hafter.live path (csi i).id ((hexposes _ _).mpr hpath)
    rw [hstore, hstored] at hk
    cases hk
    rw [getElem?_signalled h, if_pos rfl] at hz
    cases hz
    rw [← hterminal]
    exact hzlive
  · intro hkeeps
    have hsignalled : (signalled csi s i x e exposePath).Routed := by
      refine ⟨fun path' id' hpath' => ?_, fun path₁ path₂ id' h₁ h₂ => ?_⟩
      · have hold := (hexposes _ _).mp hpath'
        obtain ⟨j, y, hj, hy, hyready, hylive⟩ := hrouted.live path' id' hold
        rw [hstore]
        by_cases hij : j = i
        · subst hij
          cases h.symm.trans hy
          obtain ⟨rfl, -⟩ := hinv.stored id' j hj
          obtain ⟨hready, hterminal, -⟩ := hquiet hyready hylive
          refine ⟨j, _, hj, (getElem?_signalled h j).trans (if_pos rfl), hready, ?_⟩
          rw [hterminal]
          exact hkeeps hj path' hold
        · exact ⟨j, y, hj, (getElem?_signalled h j).trans ((if_neg hij).trans hy), hyready, hylive⟩
      · exact hrouted.one path₁ path₂ id' ((hexposes _ _).mp h₁) ((hexposes _ _).mp h₂)
    have hpaths : NoEmptyPath (signalled csi s i x e exposePath).registry.exposePathMap := by
      rw [hstore]
      exact hinv.paths
    rw [signal_eq h]
    exact (less_foldl_told csi hpaths i _ _).routed hsignalled

theorem get?_reroute (id : String) :
    (s.reroute csi i x e exposePath).registry.get? id = s.registry.get? id := by
  unfold reroute revoke
  split
  · rfl
  · split
    · split <;> rfl
    · rfl

theorem noEmptyPath_reroute (h : NoEmptyPath s.registry.exposePathMap) :
    NoEmptyPath (s.reroute csi i x e exposePath).registry.exposePathMap := by
  unfold reroute
  split
  next path _ =>
    have hregister : NoEmptyPath
        (s.registry.next csi (.registerRpc path (csi i).id)).exposePathMap :=
      InstancesRegistry.noEmptyPath_next h _
    exact hregister
  · split
    · exact (less_revoke h x _).paths
    · exact h

theorem expose_controllerAfter (h : x.expose ≠ some "") :
    (controllerAfter x e exposePath).expose ≠ some "" := by
  have hafter : exposeAfter x e exposePath ≠ some "" := by
    unfold exposeAfter
    split
    next path hexposed =>
      obtain ⟨-, -, -, -, hne⟩ := exposed_eq_some hexposed
      rintro ⟨⟩
      exact hne rfl
    · split
      · rintro ⟨⟩
      · exact h
  unfold controllerAfter
  split
  · split
    · exact hafter
    · exact h
  · exact hafter

theorem Inv.signal (hinv : s.Inv csi) (i : ℕ) (e : Event) (exposePath : Option String) :
    (s.signal csi i e exposePath).Inv csi := by
  cases h : s.controllers[i]? with
  | none =>
    unfold HostRoutes.signal
    rw [h]
    exact hinv
  | some x =>
    have hsignalled : (signalled csi s i x e exposePath).Inv csi := by
      refine ⟨noEmptyPath_reroute hinv.paths, fun id j hj => ?_, fun j y hy => ?_⟩
      · have hj : (s.reroute csi i x e exposePath).registry.get? id = some j := hj
        rw [get?_reroute] at hj
        show _ ∧ j < (s.controllers.set i _).length
        rw [List.length_set]
        exact hinv.stored id j hj
      · rw [getElem?_signalled h] at hy
        split_ifs at hy
        · cases hy
          exact expose_controllerAfter (hinv.expose i x h)
        · exact hinv.expose j y hy
    rw [signal_eq h]
    exact (less_foldl_told csi hsignalled.paths i _ _).inv hsignalled

/-! ## Controllers that are created -/

section Create

variable (csi s) (entrypointPath : String) (inputTopic : Option String) (delay : ℕ)
  (thrown : Option String)

theorem get?_create (id : String) :
    (s.createCSIController csi entrypointPath inputTopic delay thrown).registry.get? id =
      if (csi s.controllers.length).id = id then some s.controllers.length
      else s.registry.get? id := by
  obtain ⟨hstore, -⟩ := InstancesRegistry.set_store csi s.registry (csi s.controllers.length).id
    s.controllers.length
  show (s.registry.set csi _ _).get? id = _
  rw [InstancesStore.get?, hstore, InstancesStore.controllers_set, OrderedMap.get?_set]
  rfl

theorem exposes_create (path id : String) :
    (s.createCSIController csi entrypointPath inputTopic delay thrown).Exposes path id ↔
      s.Exposes path id := by
  obtain ⟨-, hpaths⟩ := InstancesRegistry.set_store csi s.registry (csi s.controllers.length).id
    s.controllers.length
  show (∃ ids, (s.registry.set csi _ _).exposePathMap.get? path = some ids ∧ id ∈ ids) ↔ _
  rw [hpaths]
  rfl

variable {csi s}

theorem Inv.create (hinv : s.Inv csi) :
    (s.createCSIController csi entrypointPath inputTopic delay thrown).Inv csi := by
  obtain ⟨-, hpaths⟩ := InstancesRegistry.set_store csi s.registry (csi s.controllers.length).id
    s.controllers.length
  refine ⟨?_, fun id j hj => ?_, fun j y hy => ?_⟩
  · show NoEmptyPath (s.registry.set csi _ _).exposePathMap
    rw [hpaths]
    exact hinv.paths
  · rw [get?_create] at hj
    show _ ∧ j < (s.controllers ++ [_]).length
    rw [List.length_append]
    split_ifs at hj with hid
    · cases hj
      exact ⟨hid, Nat.lt_succ_self _⟩
    · obtain ⟨hown, hlt⟩ := hinv.stored id j hj
      exact ⟨hown, Nat.lt_succ_of_lt hlt⟩
  · rcases List.mem_append.mp (List.mem_of_getElem? hy) with hold | hnew
    · obtain ⟨k, hk⟩ := List.mem_iff_getElem?.mp hold
      exact hinv.expose k y hk
    · cases List.mem_singleton.mp hnew
      rintro ⟨⟩

theorem routed_create_iff (hinv : s.Inv csi) (hrouted : s.Routed) :
    (s.createCSIController csi entrypointPath inputTopic delay thrown).Routed ↔
      ∀ path, ¬ s.Exposes path (csi s.controllers.length).id := by
  constructor
  · intro hafter path hpath
    rw [← exposes_create csi s entrypointPath inputTopic delay thrown] at hpath
    obtain ⟨j, y, hj, hy, hready, -⟩ := hafter.live path _ hpath
    rw [get?_create, if_pos rfl] at hj
    cases hj
    have hy : (s.controllers ++ [_])[s.controllers.length]? = some y := hy
    rw [List.getElem?_append_right (Nat.le_refl _), Nat.sub_self] at hy
    cases hy
    cases hready
  · intro hnone
    refine ⟨fun path id hpath => ?_, fun path path' id hpath hpath' => ?_⟩
    · have hold := (exposes_create csi s entrypointPath inputTopic delay thrown path id).mp hpath
      obtain ⟨j, y, hj, hy, hready, hlive⟩ := hrouted.live path id hold
      refine ⟨j, y, ?_, ?_, hready, hlive⟩
      · rw [get?_create, if_neg, hj]
        rintro rfl
        exact hnone path hold
      · show (s.controllers ++ [_])[j]? = some y
        rw [List.getElem?_append_left (hinv.stored id j hj).2, hy]
    · rw [exposes_create] at hpath hpath'
      exact hrouted.one path path' id hpath hpath'

end Create

/-! ## Runs -/

theorem Inv.next (hinv : s.Inv csi) (a : Action) : (s.next csi a).Inv csi := by
  cases a with
  | create entrypointPath inputTopic delay thrown =>
    exact hinv.create entrypointPath inputTopic delay thrown
  | signal i e exposePath => exact hinv.signal i e exposePath
  | require ids => exact ⟨hinv.paths, hinv.stored, hinv.expose⟩

theorem routed_next_iff (hinv : s.Inv csi) (hrouted : s.Routed) (a : Action) :
    (s.next csi a).Routed ↔ s.Keeps csi a := by
  cases a with
  | create entrypointPath inputTopic delay thrown =>
    exact routed_create_iff entrypointPath inputTopic delay thrown hinv hrouted
  | require ids => exact ⟨fun _ => trivial, fun _ => ⟨hrouted.live, hrouted.one⟩⟩
  | signal i e exposePath =>
    show (s.signal csi i e exposePath).Routed ↔ ∀ x, s.controllers[i]? = some x → _
    cases h : s.controllers[i]? with
    | none =>
      unfold HostRoutes.signal
      rw [h]
      exact ⟨fun _ x hx => (nomatch hx), fun _ => hrouted⟩
    | some x =>
      simp only [Option.some.injEq, forall_eq']
      cases hexposed : x.exposed e exposePath with
      | some path =>
        obtain ⟨rfl, -⟩ := exposed_eq_some hexposed
        rw [routed_exposed_iff h hrouted hexposed]
        simp only [Option.some.injEq, forall_eq']
        refine (and_iff_left fun _ path _ => ⟨?_, rfl⟩).symm
        rintro ⟨⟩
      | none =>
        have hready : (∀ path, (none : Option String) = some path →
            (∀ path', s.Exposes path' (csi i).id → path' = path) ∧
              ∃ j y, s.registry.get? (csi i).id = some j ∧ s.controllers[j]? = some y ∧
                (j = i ∨ y.readinessState = .ready) ∧ y.terminal = false) := by
          rintro path ⟨⟩
        rw [and_iff_right hready]
        cases hfails : x.failsReadiness e with
        | true =>
          rw [routed_fails_iff hinv h hrouted hfails]
          have hends : e.ends x.toCSIController = false := by
            cases e with
            | resume => cases hfails
            | connect | connectFailed | disconnect | ping | pang | readiness
            | readinessTimeout | alive | sequenceCompleted | sequenceStopped | stop | kill
            | exited | cleaned | removed | transition => rfl
          simp only [hends, and_true, forall_const]
        | false =>
          rw [routed_quiet_iff hinv h hrouted hexposed hfails]
          simp

/-- The paths are in order throughout a run exactly if every step keeps them in order. -/
theorem routed_iff_keeps (csi : ℕ → ICSI) (actions : List Action) :
    System.Always (HostRoutes.next csi) Routed new actions ↔
      System.Meets (HostRoutes.next csi) (Keeps csi) new actions := by
  have hinv : new.Inv csi :=
    ⟨fun path ids hget => (nomatch hget), fun id i hget => (nomatch hget),
      fun i x hx => (nomatch hx)⟩
  have hrouted : new.Routed := by
    refine ⟨fun path id hpath => ?_, fun path path' id hpath => ?_⟩
    all_goals
      obtain ⟨ids, hget, -⟩ := hpath
      cases hget
  apply System.always_iff_meets (I := Inv csi) (A := fun _ => True) _ _ hinv hrouted actions
  · exact fun _ _ => trivial
  · intro s a _ hinv hrouted
    exact routed_next_iff hinv hrouted a
  · intro s a _ hinv _ _
    exact hinv.next a

/-! ## A second path -/

/-- An instance is connected and says twice that it is ready, with different paths. -/
def readyTwice : List Action :=
  [.create "main" none 0 none, .signal 0 (.connect true) none,
    .signal 0 (.readiness true) (some "/a"), .signal 0 (.readiness true) (some "/b")]

theorem not_routed_readyTwice :
    ¬ System.Always (HostRoutes.next fun _ => ⟨"instance", none⟩) Routed new readyTwice := by
  intro h
  have hone := (System.always_last h).one "/a" "/b" "instance" ⟨["instance"], rfl, by decide⟩
    ⟨["instance"], rfl, by decide⟩
  exact absurd hone (by decide)

end HostRoutes

end TransformHub.Host.ExposeRoutes

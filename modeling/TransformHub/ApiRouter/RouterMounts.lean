import TransformHub.ApiRouter.RouterPaths

/-!
# Routes of mounted routers

A mount path leads from a router to one that is mounted below it, and is given by the numbers of its
mounts; `descend` follows it, and gathers the paths and the hooks on the way.
-/

namespace TransformHub.ApiRouter

variable {ρ η ζ α : Type}

namespace RouterDefinition

def hooks : RouterDefinition ρ η ζ → List η
  | mk _ hooks _ _ _ => hooks

def routes : RouterDefinition ρ η ζ → List (RouteDefinition η ζ)
  | mk _ _ routes _ _ => routes

def resolverDefinitions : RouterDefinition ρ η ζ → List (ResolverDefinition ρ η ζ)
  | mk _ _ _ resolverDefinitions _ => resolverDefinitions

def mounts : RouterDefinition ρ η ζ → List (String × List η × RouterDefinition ρ η ζ)
  | mk _ _ _ _ mounts => mounts

/-! ## Mount paths -/

/-- Where a mount path leads, and what is on it. -/
structure Descent (ρ η ζ : Type) where
  /-- of each mount, and of the router it leads to, the path -/
  paths : List String
  /-- those up to the last mount, if there is one -/
  mounted : Option (List String)
  /-- of each router, and of the mount that leads on, the hooks -/
  hooks : List η
  router : RouterDefinition ρ η ζ

def Descent.through (hooks : List η) (path : String) (mountHooks : List η) (basePath : String)
    (d : Descent ρ η ζ) : Descent ρ η ζ where
  paths := path :: basePath :: d.paths
  mounted := some (match d.mounted with
    | none => [path]
    | some paths => path :: basePath :: paths)
  hooks := hooks ++ (mountHooks ++ d.hooks)
  router := d.router

def here (router : RouterDefinition ρ η ζ) : Descent ρ η ζ := ⟨[], none, [], router⟩

/-- Follows the mounts with these numbers. -/
def descend : List ℕ → RouterDefinition ρ η ζ → Option (Descent ρ η ζ)
  | [], router => some router.here
  | i :: is, router =>
    match router.mounts[i]? with
    | none => none
    | some (path, mountHooks, child) =>
      (descend is child).map (.through router.hooks path mountHooks child.basePath)

mutual

def descents : RouterDefinition ρ η ζ → List (List ℕ × Descent ρ η ζ)
  | mk basePath hooks routes resolverDefinitions mounts =>
    ([], (mk basePath hooks routes resolverDefinitions mounts).here) ::
      descentsThrough hooks 0 mounts

def descentsThrough (hooks : List η) (i : ℕ) :
    List (String × List η × RouterDefinition ρ η ζ) → List (List ℕ × Descent ρ η ζ)
  | [] => []
  | (path, mountHooks, child) :: mounts =>
    (descents child).map
        (fun x => (i :: x.1, x.2.through hooks path mountHooks child.basePath)) ++
      descentsThrough hooks (i + 1) mounts

end

theorem descents_eq (router : RouterDefinition ρ η ζ) :
    router.descents = ([], router.here) :: descentsThrough router.hooks 0 router.mounts := by
  cases router
  rw [descents]
  rfl

theorem mem_descentsThrough {hooks : List η} {is : List ℕ} {d : Descent ρ η ζ}
    {mounts : List (String × List η × RouterDefinition ρ η ζ)} {i : ℕ} :
    (is, d) ∈ descentsThrough hooks i mounts ↔ ∃ k path mountHooks child is' d',
      mounts[k]? = some (path, mountHooks, child) ∧ (is', d') ∈ child.descents ∧
        is = (i + k) :: is' ∧ d = d'.through hooks path mountHooks child.basePath := by
  induction mounts generalizing i with
  | nil => simp [descentsThrough]
  | cons mount mounts ih =>
    obtain ⟨path, mountHooks, child⟩ := mount
    rw [descentsThrough, List.mem_append, List.mem_map, ih]
    constructor
    · rintro (⟨⟨is', d'⟩, hmem, heq⟩ | ⟨k, path', mountHooks', child', is', d', hk, hmem, rfl, rfl⟩)
      · cases heq
        exact ⟨0, path, mountHooks, child, is', d', rfl, hmem, rfl, rfl⟩
      · refine ⟨k + 1, path', mountHooks', child', is', d', hk, hmem, ?_, rfl⟩
        rw [Nat.add_assoc, Nat.add_comm 1]
    · rintro ⟨k, path', mountHooks', child', is', d', hk, hmem, rfl, rfl⟩
      cases k with
      | zero =>
        cases hk
        exact .inl ⟨(is', d'), hmem, rfl⟩
      | succ k =>
        refine .inr ⟨k, path', mountHooks', child', is', d', hk, hmem, ?_, rfl⟩
        rw [Nat.add_assoc, Nat.add_comm 1]

theorem mem_descents {is : List ℕ} {d : Descent ρ η ζ} {router : RouterDefinition ρ η ζ} :
    (is, d) ∈ router.descents ↔ descend is router = some d := by
  induction is generalizing d router with
  | nil =>
    rw [descents_eq, List.mem_cons, mem_descentsThrough]
    constructor
    · rintro (heq | ⟨k, path, mountHooks, child, is', d', -, -, hnil, -⟩)
      · cases heq
        rfl
      · cases hnil
    · intro h
      cases h
      exact .inl rfl
  | cons i is ih =>
    rw [descents_eq, List.mem_cons, mem_descentsThrough, descend]
    constructor
    · rintro (heq | ⟨k, path, mountHooks, child, is', d', hk, hmem, hcons, rfl⟩)
      · cases heq
      · rw [Nat.zero_add] at hcons
        cases hcons
        rw [hk]
        dsimp only
        rw [ih.mp hmem]
        rfl
    · intro h
      apply Or.inr
      cases hmount : router.mounts[i]? with
      | none =>
        rw [hmount] at h
        cases h
      | some mount =>
        obtain ⟨path, mountHooks, child⟩ := mount
        rw [hmount] at h
        obtain ⟨d', hd', rfl⟩ := Option.map_eq_some_iff.mp h
        exact ⟨i, path, mountHooks, child, is, d', hmount, ih.mpr hd', by rw [Nat.zero_add], rfl⟩

mutual

theorem nodup_descents :
    ∀ router : RouterDefinition ρ η ζ, (router.descents.map Prod.fst).Nodup
  | mk basePath hooks routes resolverDefinitions mounts => by
      rw [descents, List.map_cons, List.nodup_cons]
      refine ⟨fun hmem => ?_, nodup_descentsThrough hooks 0 mounts⟩
      obtain ⟨⟨is, d⟩, hmem, hnil⟩ := List.mem_map.mp hmem
      obtain ⟨k, -, -, -, is', -, -, -, rfl, -⟩ := mem_descentsThrough.mp hmem
      cases hnil

theorem nodup_descentsThrough (hooks : List η) (i : ℕ) :
    ∀ mounts : List (String × List η × RouterDefinition ρ η ζ),
      ((descentsThrough hooks i mounts).map Prod.fst).Nodup
  | [] => by
      rw [descentsThrough]
      exact List.nodup_nil
  | (path, mountHooks, child) :: mounts => by
      rw [descentsThrough, List.map_append, List.nodup_append]
      refine ⟨?_, nodup_descentsThrough hooks (i + 1) mounts, ?_⟩
      · have hchild := nodup_descents child
        have hcons : ((child.descents.map Prod.fst).map (i :: ·)).Nodup :=
          hchild.map fun _ _ h => List.cons_injective h
        simpa [Function.comp_def] using hcons
      · -- the first number tells the mounts apart
        intro is his is' his' heq
        obtain ⟨x, hx, rfl⟩ := List.mem_map.mp his
        obtain ⟨y, -, rfl⟩ := List.mem_map.mp hx
        obtain ⟨⟨is'', d⟩, hmem, rfl⟩ := List.mem_map.mp his'
        obtain ⟨k, -, -, -, is', -, -, -, rfl, -⟩ := mem_descentsThrough.mp hmem
        have hhead : i = i + 1 + k := (List.cons_eq_cons.mp heq).1
        omega

end

/-! ## Collectors -/

section Visit

variable (own : String → List η → Option String → RouterDefinition ρ η ζ → List α)

mutual

/-- What both collectors do, with what they take of each router. -/
def visit (basePath : String) (inheritedHooks : List η) (mountPath : Option String) :
    RouterDefinition ρ η ζ → List α
  | mk rawBasePath hooks routes resolverDefinitions mounts =>
    own basePath inheritedHooks mountPath
        (mk rawBasePath hooks routes resolverDefinitions mounts) ++
      visitMounts basePath (inheritedHooks ++ hooks) mounts

def visitMounts (basePath : String) (inheritedHooks : List η) :
    List (String × List η × RouterDefinition ρ η ζ) → List α
  | [] => []
  | (path, hooks, router) :: mounts =>
    let mountedBase := joinPaths basePath (normalizePath path)
    visit (joinPaths mountedBase router.basePath) (inheritedHooks ++ hooks) (some mountedBase)
        router ++
      visitMounts basePath inheritedHooks mounts

end

def Descent.mountPath (d : Descent ρ η ζ) (basePath : String) (mountPath : Option String) :
    Option String :=
  match d.mounted with
  | none => mountPath
  | some paths => some (joinAll (basePath :: paths))

/-- What is taken of the router that a mount path leads to. -/
def taken (basePath : String) (inheritedHooks : List η) (mountPath : Option String)
    (d : Descent ρ η ζ) : List α :=
  own (joinAll (basePath :: d.paths)) (inheritedHooks ++ d.hooks) (d.mountPath basePath mountPath)
    d.router

theorem taken_through (basePath : String) (inheritedHooks hooks : List η)
    (mountPath : Option String) (path : String) (mountHooks : List η) (childBasePath : String)
    (d : Descent ρ η ζ) :
    taken own basePath inheritedHooks mountPath
        (d.through hooks path mountHooks childBasePath) =
      taken own (joinPaths (joinPaths basePath (normalizePath path)) childBasePath)
        (inheritedHooks ++ hooks ++ mountHooks) (some (joinPaths basePath (normalizePath path))) d := by
  have hbase : ∀ paths, joinAll (basePath :: path :: childBasePath :: paths) =
      joinAll (joinPaths (joinPaths basePath (normalizePath path)) childBasePath :: paths) := by
    intro paths
    simp [joinAll_eq, pathSegments_joinPaths, pathSegments_normalizePath]
  have hmounted : joinAll [basePath, path] = joinPaths basePath (normalizePath path) := by
    rw [joinAll_eq, joinPaths_eq, pathSegments_normalizePath]
    simp
  have hmountPath : (d.through hooks path mountHooks childBasePath).mountPath basePath mountPath =
      d.mountPath (joinPaths (joinPaths basePath (normalizePath path)) childBasePath)
        (some (joinPaths basePath (normalizePath path))) := by
    unfold Descent.mountPath Descent.through
    cases d.mounted with
    | none => exact congrArg some hmounted
    | some paths => exact congrArg some (hbase paths)
  have hhooks : inheritedHooks ++ (d.through hooks path mountHooks childBasePath).hooks =
      inheritedHooks ++ hooks ++ mountHooks ++ d.hooks := by
    simp [Descent.through]
  have hpaths : joinAll (basePath :: (d.through hooks path mountHooks childBasePath).paths) =
      joinAll (joinPaths (joinPaths basePath (normalizePath path)) childBasePath :: d.paths) :=
    hbase d.paths
  unfold taken
  rw [hpaths, hhooks, hmountPath]
  rfl

mutual

theorem visit_eq (basePath : String) (hbase : normalizePath basePath = basePath)
    (inheritedHooks : List η) (mountPath : Option String) :
    ∀ router : RouterDefinition ρ η ζ, visit own basePath inheritedHooks mountPath router =
      router.descents.flatMap fun x => taken own basePath inheritedHooks mountPath x.2
  | mk rawBasePath hooks routes resolverDefinitions mounts => by
      have hhere : joinAll [basePath] = basePath := by
        rw [joinAll_eq, List.flatMap_cons, List.flatMap_nil, List.append_nil, ← normalizePath_eq,
          hbase]
      rw [visit, descents, List.flatMap_cons,
        visitMounts_eq basePath inheritedHooks mountPath hooks 0 mounts]
      unfold taken here Descent.mountPath
      rw [hhere, List.append_nil]

theorem visitMounts_eq (basePath : String) (inheritedHooks : List η) (mountPath : Option String)
    (hooks : List η) (i : ℕ) :
    ∀ mounts : List (String × List η × RouterDefinition ρ η ζ),
      visitMounts own basePath (inheritedHooks ++ hooks) mounts =
        (descentsThrough hooks i mounts).flatMap
          fun x => taken own basePath inheritedHooks mountPath x.2
  | [] => by
      rw [visitMounts, descentsThrough, List.flatMap_nil]
  | (path, mountHooks, child) :: mounts => by
      have hbase : normalizePath (joinPaths (joinPaths basePath (normalizePath path))
          child.basePath) = joinPaths (joinPaths basePath (normalizePath path)) child.basePath :=
        normalizePath_normalizePath _
      have hchild := visit_eq (joinPaths (joinPaths basePath (normalizePath path)) child.basePath)
        hbase (inheritedHooks ++ hooks ++ mountHooks)
        (some (joinPaths basePath (normalizePath path))) child
      rw [visitMounts, descentsThrough, List.flatMap_append, List.flatMap_map,
        visitMounts_eq basePath inheritedHooks mountPath hooks (i + 1) mounts]
      dsimp only
      rw [hchild]
      simp only [taken_through]

end

end Visit

mutual

theorem collectRoutes_eq_visit (basePath : String) (inheritedHooks : List η)
    (mountPath : Option String) :
    ∀ router : RouterDefinition ρ η ζ, router.collectRoutes basePath inheritedHooks mountPath =
      visit (fun basePath inheritedHooks mountPath router => router.routes.map
        (routeEntry basePath inheritedHooks router.hooks mountPath))
        basePath inheritedHooks mountPath router
  | mk rawBasePath hooks routes resolverDefinitions mounts => by
      rw [collectRoutes, visit, collectMountedRoutes_eq_visit]
      rfl

theorem collectMountedRoutes_eq_visit (basePath : String) (inheritedHooks : List η) :
    ∀ mounts : List (String × List η × RouterDefinition ρ η ζ),
      collectMountedRoutes basePath inheritedHooks mounts =
      visitMounts (fun basePath inheritedHooks mountPath router => router.routes.map
        (routeEntry basePath inheritedHooks router.hooks mountPath))
        basePath inheritedHooks mounts
  | [] => by
      rw [collectMountedRoutes, visitMounts]
  | (path, mountHooks, child) :: mounts => by
      rw [collectMountedRoutes, visitMounts, collectRoutes_eq_visit, collectMountedRoutes_eq_visit]

end

mutual

theorem collectResolvers_eq_visit (basePath : String) (inheritedHooks : List η)
    (mountPath : Option String) :
    ∀ router : RouterDefinition ρ η ζ, router.collectResolvers basePath mountPath =
      visit (fun basePath _ mountPath router => router.resolverDefinitions.map
        (resolverEntry basePath mountPath)) basePath inheritedHooks mountPath router
  | mk rawBasePath hooks routes resolverDefinitions mounts => by
      rw [collectResolvers, visit, collectMountedResolvers_eq_visit]
      rfl

theorem collectMountedResolvers_eq_visit (basePath : String) (inheritedHooks : List η) :
    ∀ mounts : List (String × List η × RouterDefinition ρ η ζ),
      collectMountedResolvers basePath mounts =
      visitMounts (fun basePath _ mountPath router => router.resolverDefinitions.map
        (resolverEntry basePath mountPath)) basePath inheritedHooks mounts
  | [] => by
      rw [collectMountedResolvers, visitMounts]
  | (path, mountHooks, child) :: mounts => by
      rw [collectMountedResolvers, visitMounts,
        collectResolvers_eq_visit _ (inheritedHooks ++ mountHooks),
        collectMountedResolvers_eq_visit basePath inheritedHooks mounts]

end

/-! ## Effective routes -/

/-- The entry of a route of the router that a mount path leads to. -/
def effectiveRoute (router : RouterDefinition ρ η ζ) (d : Descent ρ η ζ)
    (definition : RouteDefinition η ζ) : RouteManifestEntry η ζ :=
  routeEntry (joinAll (router.basePath :: d.paths)) d.hooks d.router.hooks
    (d.mountPath router.basePath none) definition

/-- The entry of a resolver of the router that a mount path leads to. -/
def effectiveResolver (router : RouterDefinition ρ η ζ) (d : Descent ρ η ζ)
    (definition : ResolverDefinition ρ η ζ) : ResolverManifestEntry ρ η ζ :=
  resolverEntry (joinAll (router.basePath :: d.paths)) (d.mountPath router.basePath none) definition

section

variable (router : RouterDefinition ρ η ζ)
include router

theorem effectiveRoute_fullPath (d : Descent ρ η ζ)
    (definition : RouteDefinition η ζ) : (router.effectiveRoute d definition).fullPath =
      joinAll (router.basePath :: d.paths ++ [definition.path]) := by
  unfold effectiveRoute routeEntry
  dsimp only
  rw [joinPaths_eq, pathSegments_normalizePath, ← joinPaths_eq, joinPaths_joinAll]

theorem effectiveResolver_fullPath (d : Descent ρ η ζ)
    (definition : ResolverDefinition ρ η ζ) : (router.effectiveResolver d definition).fullPath =
      joinAll (router.basePath :: d.paths ++ [definition.path]) := by
  unfold effectiveResolver resolverEntry
  dsimp only
  rw [joinPaths_eq, pathSegments_normalizePath, ← joinPaths_eq, joinPaths_joinAll]

theorem normalizePath_basePath : normalizePath router.basePath = router.basePath := by
  cases router
  exact normalizePath_normalizePath _

theorem collectedRoutes_eq : router.collectedRoutes =
    router.descents.flatMap fun x => x.2.router.routes.map (router.effectiveRoute x.2) := by
  unfold collectedRoutes
  rw [collectRoutes_eq_visit, visit_eq _ _ router.normalizePath_basePath]
  unfold taken effectiveRoute
  simp only [List.nil_append]

theorem collectedResolvers_eq : router.collectedResolvers =
    router.descents.flatMap fun x =>
      x.2.router.resolverDefinitions.map (router.effectiveResolver x.2) := by
  unfold collectedResolvers
  rw [collectResolvers_eq_visit _ [], visit_eq _ _ router.normalizePath_basePath]
  unfold taken effectiveResolver
  rfl

end

/-- Every route is collected once for each mount path to its router, in order, with the normalized
join of the paths on it and the hooks on it, and so is every resolver. -/
theorem collected_once_per_mountPath (router : RouterDefinition ρ η ζ) :
    (router.descents.map Prod.fst).Nodup ∧
    (∀ is d, (is, d) ∈ router.descents ↔ descend is router = some d) ∧
    (router.collectedRoutes =
      router.descents.flatMap fun x => x.2.router.routes.map (router.effectiveRoute x.2)) ∧
    (router.collectedResolvers = router.descents.flatMap fun x =>
      x.2.router.resolverDefinitions.map (router.effectiveResolver x.2)) ∧
    (∀ d definition, (router.effectiveRoute d definition).fullPath =
        joinAll (router.basePath :: d.paths ++ [definition.path]) ∧
      (router.effectiveRoute d definition).hooks =
        d.hooks ++ (d.router.hooks ++ definition.hooks)) ∧
    (∀ d definition, (router.effectiveResolver d definition).fullPath =
        joinAll (router.basePath :: d.paths ++ [definition.path])) ∧
    (∀ first second third, joinPaths (joinPaths first second) third =
      joinPaths first (joinPaths second third)) ∧
    ∀ path, normalizePath (normalizePath path) = normalizePath path :=
  ⟨nodup_descents router, fun _ _ => mem_descents, collectedRoutes_eq router,
    collectedResolvers_eq router,
    fun d definition => ⟨effectiveRoute_fullPath router d definition, rfl⟩,
    fun d definition => effectiveResolver_fullPath router d definition, joinPaths_assoc,
    normalizePath_normalizePath⟩

end RouterDefinition

end TransformHub.ApiRouter

import TransformHub.ApiRouter.Router

/-!
# Expansion of resolvers

Which routes are reached through how many resolvers, and when `collect` returns those that are
reached through at most `maxResolverDepth` of them.
-/

namespace TransformHub.ApiRouter

variable {ρ η ζ : Type} (mergeObjects : ζ → ζ → Option ζ) (routers : ρ → RouterDefinition ρ η ζ)

namespace RouterDefinition

def HasTarget (router : RouterDefinition ρ η ζ) (resolver : ResolverManifestEntry ρ η ζ)
    (target : ResolverTargetDefinition ρ η ζ) : Prop :=
  resolver ∈ router.collectedResolvers ∧ target ∈ resolver.targetDefinitions

/-- A resolver of one router leads to another. -/
def Leads (router next : RouterDefinition ρ η ζ) : Prop :=
  ∃ resolver target name, router.HasTarget resolver target ∧ target.definitions = .router name ∧
    next = routers name

/-- No chain of resolvers that begins at the router goes on for ever. -/
def NoInfiniteChain (router : RouterDefinition ρ η ζ) : Prop :=
  Acc (fun next router => Leads routers router next) router

/-- A route is reached through a number of resolvers. -/
inductive Reaches : RouterDefinition ρ η ζ → ℕ → RouteManifestEntry η ζ → Prop
  | route {router : RouterDefinition ρ η ζ} {entry : RouteManifestEntry η ζ}
      (hentry : entry ∈ router.collectedRoutes) : Reaches router 0 entry
  | manifest {router : RouterDefinition ρ η ζ} {resolver : ResolverManifestEntry ρ η ζ}
      {target : ResolverTargetDefinition ρ η ζ} {manifest : TargetManifest η ζ}
      {entry : RouteManifestEntry η ζ} (htarget : router.HasTarget resolver target)
      (hmanifest : target.definitions = .manifest manifest) (hentry : entry ∈ manifest.routes) :
      Reaches router 1
        (expandRoute mergeObjects resolver target manifest.basePath { entry with resolvers := 0 })
  | resolver {router : RouterDefinition ρ η ζ} {resolver : ResolverManifestEntry ρ η ζ}
      {target : ResolverTargetDefinition ρ η ζ} {name : ρ} {n : ℕ}
      {entry : RouteManifestEntry η ζ} (htarget : router.HasTarget resolver target)
      (hrouter : target.definitions = .router name) (hentry : Reaches (routers name) n entry) :
      Reaches router (n + 1)
        (expandRoute mergeObjects resolver target (routers name).basePath entry)

/-- `collect` ends, and returns the routes that are reached through at most so many resolvers. -/
structure BoundedExpansion (router : RouterDefinition ρ η ζ) (limit : Option ℕ) : Prop where
  terminates : ∃ fuel, collect mergeObjects routers fuel router ⟨true, limit⟩ ≠ .error .stack
  bounded : ∀ fuel manifest, collect mergeObjects routers fuel router ⟨true, limit⟩ = .ok manifest →
    ∀ entry ∈ manifest.routes, entry.resolvers ≤ limit.getD 8
  complete : ∀ fuel manifest,
    collect mergeObjects routers fuel router ⟨true, limit⟩ = .ok manifest →
      ∀ n entry, n ≤ limit.getD 8 → Reaches mergeObjects routers router n entry →
        entry ∈ manifest.routes

variable {mergeObjects routers} {router : RouterDefinition ρ η ζ} {options : CollectManifestOptions}
  {manifest : RouteManifest ρ η ζ} {entry : RouteManifestEntry η ζ} {fuel : ℕ}

/-! ## Static routes -/

mutual

theorem resolvers_of_mem_collectRoutes {basePath : String} {hooks : List η}
    {mountPath : Option String} :
    ∀ router : RouterDefinition ρ η ζ, entry ∈ router.collectRoutes basePath hooks mountPath →
      entry.resolvers = 0
  | mk _ _ routes _ mounts => by
      intro h
      rw [collectRoutes, List.mem_append] at h
      rcases h with h | h
      · obtain ⟨route, -, rfl⟩ := List.mem_map.mp h
        rfl
      · exact resolvers_of_mem_collectMountedRoutes mounts h

theorem resolvers_of_mem_collectMountedRoutes {basePath : String} {hooks : List η} :
    ∀ mounts : List (String × List η × RouterDefinition ρ η ζ),
      entry ∈ collectMountedRoutes basePath hooks mounts → entry.resolvers = 0
  | [] => by
      intro h
      rw [collectMountedRoutes] at h
      cases h
  | (_, _, router) :: mounts => by
      intro h
      rw [collectMountedRoutes, List.mem_append] at h
      rcases h with h | h
      · exact resolvers_of_mem_collectRoutes router h
      · exact resolvers_of_mem_collectMountedRoutes mounts h

end

/-! ## What `collect` returns -/

theorem depth_ne_zero (options : CollectManifestOptions) : options.depth ≠ 0 := by
  unfold CollectManifestOptions.depth
  split
  · decide
  · split
    · decide
    · assumption

theorem collect_succ (limit : Option ℕ) :
    collect mergeObjects routers (fuel + 1) router ⟨true, limit⟩ =
      match expandResolverRoutes mergeObjects routers (collect mergeObjects routers fuel)
        router.collectedResolvers (CollectManifestOptions.depth ⟨true, limit⟩) with
      | .error e => .error e
      | .ok expanded =>
        match checkRoutes [] (router.collectedRoutes ++ expanded) with
        | .error e => .error e
        | .ok _ =>
          .ok ⟨router.basePath, router.collectedRoutes ++ expanded,
            router.collectedResolvers⟩ := by
  rw [collect]
  simp only [if_true]
  generalize expandResolverRoutes mergeObjects routers (collect mergeObjects routers fuel)
    router.collectedResolvers (CollectManifestOptions.depth ⟨true, limit⟩) = expansion
  cases expansion with
  | error e => rfl
  | ok expanded =>
    simp only [bind, Except.bind, pure, Except.pure]
    cases checkRoutes [] (router.collectedRoutes ++ expanded) with
    | error e | ok _ => rfl

theorem checkRoutes_ne_stack {seen : List String} {entries : List (RouteManifestEntry η ζ)} :
    checkRoutes seen entries ≠ .error .stack := by
  induction entries generalizing seen with
  | nil =>
    exact nofun
  | cons entry entries ih =>
    rw [checkRoutes]
    split
    · exact nofun
    · exact ih

variable {limit : Option ℕ}

theorem collect_eq_ok
    (h : collect mergeObjects routers (fuel + 1) router ⟨true, limit⟩ = .ok manifest) :
    ∃ expanded, manifest.routes = router.collectedRoutes ++ expanded ∧
      manifest.basePath = router.basePath ∧
      flatMapM (fun resolver =>
        flatMapM (expandTargetRoutes mergeObjects routers (collect mergeObjects routers fuel)
          resolver (CollectManifestOptions.depth ⟨true, limit⟩)) resolver.targetDefinitions)
        router.collectedResolvers = .ok expanded := by
  rw [collect_succ, expandResolverRoutes, if_neg (depth_ne_zero _)] at h
  split at h
  · cases h
  · rename_i expanded hexpanded
    split at h
    · cases h
    · cases h
      exact ⟨expanded, rfl, rfl, hexpanded⟩

variable {target : ResolverTargetDefinition ρ η ζ} {resolver : ResolverManifestEntry ρ η ζ}

theorem expanded_of_hasTarget (htarget : router.HasTarget resolver target)
    (h : collect mergeObjects routers (fuel + 1) router ⟨true, limit⟩ = .ok manifest) :
    ∃ entries, expandTargetRoutes mergeObjects routers (collect mergeObjects routers fuel)
        resolver (CollectManifestOptions.depth ⟨true, limit⟩) target = .ok entries ∧
      ∀ entry ∈ entries, entry ∈ manifest.routes := by
  obtain ⟨expanded, hroutes, -, hexpanded⟩ := collect_eq_ok h
  obtain ⟨inner, hinner, hsub⟩ := ok_of_flatMapM_ok hexpanded htarget.1
  obtain ⟨entries, hentries, hsub'⟩ := ok_of_flatMapM_ok hinner htarget.2
  refine ⟨entries, hentries, fun entry hentry => ?_⟩
  rw [hroutes]
  exact List.mem_append_right _ (hsub _ (hsub' _ hentry))

theorem collected_of_hasTarget {name : ρ} (htarget : router.HasTarget resolver target)
    (hrouter : target.definitions = .router name)
    (h : collect mergeObjects routers (fuel + 1) router ⟨true, limit⟩ = .ok manifest) :
    ∃ targetManifest limit', collect mergeObjects routers fuel (routers name) ⟨true, limit'⟩ =
        .ok targetManifest ∧
      ∀ entry ∈ targetManifest.routes,
        expandRoute mergeObjects resolver target targetManifest.basePath entry ∈
          manifest.routes := by
  obtain ⟨entries, hentries, hsub⟩ := expanded_of_hasTarget htarget h
  rw [expandTargetRoutes, hrouter] at hentries
  dsimp only at hentries
  cases hcollect : collect mergeObjects routers fuel (routers name)
    ⟨true, some (CollectManifestOptions.depth ⟨true, limit⟩ - 1)⟩ with
  | error e =>
    rw [hcollect] at hentries
    cases hentries
  | ok targetManifest =>
    rw [hcollect] at hentries
    cases hentries
    exact ⟨targetManifest, _, hcollect, fun entry hentry =>
      hsub _ (List.mem_map_of_mem hentry)⟩

theorem basePath_of_collect
    (h : collect mergeObjects routers fuel router ⟨true, limit⟩ = .ok manifest) :
    manifest.basePath = router.basePath := by
  cases fuel with
  | zero => cases h
  | succ fuel =>
    obtain ⟨-, -, hbase, -⟩ := collect_eq_ok h
    exact hbase

theorem Reaches.mem_routes {n : ℕ} (hreaches : Reaches mergeObjects routers router n entry) :
    ∀ {fuel manifest limit},
      collect mergeObjects routers fuel router ⟨true, limit⟩ = .ok manifest →
        entry ∈ manifest.routes := by
  induction hreaches with
  | route hentry =>
    intro fuel manifest limit h
    cases fuel with
    | zero => cases h
    | succ fuel =>
      obtain ⟨expanded, hroutes, -⟩ := collect_eq_ok h
      rw [hroutes]
      exact List.mem_append_left _ hentry
  | manifest htarget hmanifest hentry =>
    intro fuel manifest limit h
    cases fuel with
    | zero => cases h
    | succ fuel =>
      obtain ⟨entries, hentries, hsub⟩ := expanded_of_hasTarget htarget h
      rw [expandTargetRoutes, hmanifest] at hentries
      cases hentries
      exact hsub _ (List.mem_map_of_mem hentry)
  | resolver htarget hrouter hentry ih =>
    intro fuel manifest limit h
    cases fuel with
    | zero => cases h
    | succ fuel =>
      obtain ⟨targetManifest, limit', hcollect, hsub⟩ :=
        collected_of_hasTarget htarget hrouter h
      have hmem := hsub _ (ih hcollect)
      rw [basePath_of_collect hcollect] at hmem
      exact hmem

theorem Reaches.resolvers_eq {n : ℕ} (hreaches : Reaches mergeObjects routers router n entry) :
    entry.resolvers = n := by
  induction hreaches with
  | route hentry => exact resolvers_of_mem_collectRoutes _ hentry
  | manifest => rfl
  | resolver _ _ _ ih =>
    show _ + 1 = _ + 1
    rw [ih]

theorem reaches_of_mem_routes :
    ∀ {fuel router manifest limit entry},
      collect mergeObjects routers fuel router ⟨true, limit⟩ = .ok manifest →
        entry ∈ manifest.routes → Reaches mergeObjects routers router entry.resolvers entry := by
  intro fuel
  induction fuel with
  | zero =>
    intro router manifest limit entry h
    cases h
  | succ fuel ih =>
    intro router manifest limit entry h hentry
    obtain ⟨expanded, hroutes, -, hexpanded⟩ := collect_eq_ok h
    rw [hroutes] at hentry
    rcases List.mem_append.mp hentry with hentry | hentry
    · rw [resolvers_of_mem_collectRoutes _ hentry]
      exact .route hentry
    · obtain ⟨resolver, hresolver, inner, hinner, hentry⟩ :=
        exists_of_mem_flatMapM hexpanded hentry
      obtain ⟨target, htarget, entries, hentries, hentry⟩ :=
        exists_of_mem_flatMapM hinner hentry
      rw [expandTargetRoutes] at hentries
      cases hdefinitions : target.definitions with
      | manifest targetManifest =>
        rw [hdefinitions] at hentries
        cases hentries
        obtain ⟨route, hroute, rfl⟩ := List.mem_map.mp hentry
        exact .manifest ⟨hresolver, htarget⟩ hdefinitions hroute
      | router name =>
        rw [hdefinitions] at hentries
        dsimp only at hentries
        cases hcollect : collect mergeObjects routers fuel (routers name)
          ⟨true, some (CollectManifestOptions.depth ⟨true, limit⟩ - 1)⟩ with
        | error e =>
          rw [hcollect] at hentries
          cases hentries
        | ok targetManifest =>
          rw [hcollect] at hentries
          cases hentries
          obtain ⟨route, hroute, rfl⟩ := List.mem_map.mp hentry
          rw [basePath_of_collect hcollect]
          exact .resolver ⟨hresolver, htarget⟩ hdefinitions (ih hcollect hroute)

/-! ## When `collect` ends -/

theorem expandTargetRoutes_congr
    {collect₁ collect₂ : RouterDefinition ρ η ζ → CollectManifestOptions → Except CollectError (RouteManifest ρ η ζ)}
    (hagree : ∀ router options, collect₁ router options ≠ .error .stack → collect₂ router options = collect₁ router options)
    {depth : ℕ}
    (h : expandTargetRoutes mergeObjects routers collect₁ resolver depth target ≠ .error .stack) :
    expandTargetRoutes mergeObjects routers collect₂ resolver depth target =
      expandTargetRoutes mergeObjects routers collect₁ resolver depth target := by
  unfold expandTargetRoutes at h ⊢
  cases hdefinitions : target.definitions with
  | manifest manifest => rfl
  | router name =>
    rw [hdefinitions] at h
    dsimp only at h ⊢
    rw [hagree]
    intro hnot
    rw [hnot] at h
    exact h rfl

theorem collect_succ_eq :
    ∀ {fuel router options}, collect mergeObjects routers fuel router options ≠ .error .stack →
      collect mergeObjects routers (fuel + 1) router options =
        collect mergeObjects routers fuel router options := by
  intro fuel
  induction fuel with
  | zero =>
    intro router options h
    exact absurd rfl h
  | succ fuel ih =>
    intro router ⟨expandResolvers, limit⟩ h
    cases expandResolvers with
    | false => rfl
    | true =>
      rw [collect_succ, expandResolverRoutes, if_neg (depth_ne_zero _)] at h ⊢
      rw [collect_succ, expandResolverRoutes, if_neg (depth_ne_zero _)]
      rw [flatMapM_congr (e := CollectError.stack)]
      · intro resolver hresolver hne
        apply flatMapM_congr _ hne
        intro target htarget
        exact expandTargetRoutes_congr fun router options => ih
      · intro hnot
        rw [hnot] at h
        exact h rfl

theorem collect_mono {fuel' : ℕ} (hle : fuel ≤ fuel')
    (h : collect mergeObjects routers fuel router options ≠ .error .stack) :
    collect mergeObjects routers fuel' router options =
      collect mergeObjects routers fuel router options := by
  induction hle with
  | refl => rfl
  | step hle ih =>
    rw [collect_succ_eq, ih]
    rw [ih]
    exact h

theorem collect_ne_stack
    (h : ∀ resolver target name, router.HasTarget resolver target → target.definitions = .router name → collect mergeObjects routers fuel (routers name) ⟨true, some (CollectManifestOptions.depth ⟨true, limit⟩ - 1)⟩ ≠ .error .stack) :
    collect mergeObjects routers (fuel + 1) router ⟨true, limit⟩ ≠ .error .stack := by
  have hexpand : flatMapM (fun resolver =>
      flatMapM (expandTargetRoutes mergeObjects routers (collect mergeObjects routers fuel)
        resolver (CollectManifestOptions.depth ⟨true, limit⟩)) resolver.targetDefinitions)
      router.collectedResolvers ≠ .error .stack := by
    apply flatMapM_ne_error
    intro resolver hresolver
    apply flatMapM_ne_error
    intro target htarget
    rw [expandTargetRoutes]
    cases hdefinitions : target.definitions with
    | manifest manifest =>
      exact nofun
    | router name =>
      have hcollect := h resolver target name ⟨hresolver, htarget⟩ hdefinitions
      dsimp only
      intro hnot
      cases hresult : collect mergeObjects routers fuel (routers name)
        ⟨true, some (CollectManifestOptions.depth ⟨true, limit⟩ - 1)⟩ with
      | error e =>
        rw [hresult] at hnot hcollect
        cases hnot
        exact hcollect rfl
      | ok manifest =>
        rw [hresult] at hnot
        cases hnot
  rw [collect_succ, expandResolverRoutes, if_neg (depth_ne_zero _)]
  split
  · rename_i e hresult
    intro hnot
    cases hnot
    exact hexpand hresult
  · split
    · rename_i hcheck
      intro hnot
      cases hnot
      exact checkRoutes_ne_stack hcheck
    · intro hnot
      cases hnot

theorem collect_stack {resolvers : List (ResolverManifestEntry ρ η ζ)}
    {targets : List (ResolverTargetDefinition ρ η ζ)} {name : ρ}
    (hresolvers : router.collectedResolvers = resolver :: resolvers)
    (htargets : resolver.targetDefinitions = target :: targets)
    (hrouter : target.definitions = .router name)
    (h : ∀ limit, collect mergeObjects routers fuel (routers name) ⟨true, limit⟩ = .error .stack) :
    collect mergeObjects routers (fuel + 1) router ⟨true, limit⟩ = .error .stack := by
  rw [collect_succ, expandResolverRoutes, if_neg (depth_ne_zero _), hresolvers, flatMapM, htargets,
    flatMapM, expandTargetRoutes, hrouter]
  dsimp only
  rw [h]
  rfl

theorem NoInfiniteChain.terminates (h : NoInfiniteChain routers router) :
    ∀ limit, ∃ fuel, collect mergeObjects routers fuel router ⟨true, limit⟩ ≠ .error .stack := by
  induction h with
  | intro router _ ih =>
    intro limit
    let targets := router.collectedResolvers.flatMap (·.targetDefinitions)
    have hfuel : ∃ n, ∀ target ∈ targets, ∀ name, target.definitions = .router name →
        collect mergeObjects routers n (routers name)
          ⟨true, some (CollectManifestOptions.depth ⟨true, limit⟩ - 1)⟩ ≠ .error .stack := by
      apply exists_forall_of_mono
      · intro target m n hle h name hname
        rw [collect_mono hle (h name hname)]
        exact h name hname
      · intro target htarget
        cases hdefinitions : target.definitions with
        | manifest manifest => exact ⟨0, nofun⟩
        | router name =>
          obtain ⟨resolver, hresolver, htarget⟩ := List.mem_flatMap.mp htarget
          obtain ⟨n, hn⟩ := ih (routers name)
            ⟨resolver, target, name, ⟨hresolver, htarget⟩, hdefinitions, rfl⟩
            (some (CollectManifestOptions.depth ⟨true, limit⟩ - 1))
          refine ⟨n, fun name' hname => ?_⟩
          cases hname
          exact hn
    obtain ⟨n, hn⟩ := hfuel
    refine ⟨n + 1, collect_ne_stack fun resolver target name htarget hrouter => ?_⟩
    exact hn target (List.mem_flatMap.mpr ⟨resolver, htarget.1, htarget.2⟩) name hrouter

theorem noInfiniteChain_of_collect :
    ∀ {fuel router manifest limit},
      collect mergeObjects routers fuel router ⟨true, limit⟩ = .ok manifest →
        NoInfiniteChain routers router := by
  intro fuel
  induction fuel with
  | zero =>
    intro router manifest limit h
    cases h
  | succ fuel ih =>
    intro router manifest limit h
    constructor
    rintro next ⟨resolver, target, name, htarget, hrouter, rfl⟩
    obtain ⟨targetManifest, limit', hcollect, -⟩ := collected_of_hasTarget htarget hrouter h
    exact ih hcollect

/-! ## The bound -/

variable (mergeObjects routers)

/-- The expansion is bounded by the depth where no chain of resolvers goes on for ever and nothing
is reached through more of them; elsewhere it is not, unless a duplicate route is rejected. -/
theorem boundedExpansion_iff_reaches_le (router : RouterDefinition ρ η ζ) (limit : Option ℕ) :
    ((NoInfiniteChain routers router ∧
        ∀ n entry, Reaches mergeObjects routers router n entry → n ≤ limit.getD 8) →
      BoundedExpansion mergeObjects routers router limit) ∧
    ((∀ fuel id, collect mergeObjects routers fuel router ⟨true, limit⟩ ≠
        .error (.duplicateRoute id)) →
      BoundedExpansion mergeObjects routers router limit →
        NoInfiniteChain routers router ∧
          ∀ n entry, Reaches mergeObjects routers router n entry → n ≤ limit.getD 8) := by
  constructor
  · rintro ⟨hchain, hle⟩
    refine ⟨hchain.terminates limit, fun fuel manifest h entry hentry => ?_,
      fun fuel manifest h n entry _ hreaches => hreaches.mem_routes h⟩
    exact hle _ entry (reaches_of_mem_routes h hentry)
  · intro hduplicate hbounded
    obtain ⟨fuel, hfuel⟩ := hbounded.terminates
    cases hresult : collect mergeObjects routers fuel router ⟨true, limit⟩ with
    | error e =>
      cases e with
      | stack => exact absurd hresult hfuel
      | duplicateRoute id => exact absurd hresult (hduplicate fuel id)
    | ok manifest =>
      refine ⟨noInfiniteChain_of_collect hresult, fun n entry hreaches => ?_⟩
      have hle := hbounded.bounded fuel manifest hresult entry (hreaches.mem_routes hresult)
      rw [hreaches.resolvers_eq] at hle
      exact hle

/-- A router with a resolver whose target is the router itself. -/
def loop : RouterDefinition Unit Unit Unit :=
  mk "/" [] [⟨none, .get, "/a", none, []⟩]
    [⟨none, "/loop", none, [⟨"loop", .router (), none, none, none⟩]⟩] []

theorem loop_stack (limit : Option ℕ) :
    collect (fun _ _ => none) (fun _ => loop) fuel loop ⟨true, limit⟩ = .error .stack := by
  induction fuel generalizing limit with
  | zero => rfl
  | succ fuel ih => exact collect_stack rfl rfl rfl ih

/-- With a depth of one the router is expanded again and again. -/
theorem loop_not_bounded :
    ¬ BoundedExpansion (fun _ _ : Unit => none) (fun _ : Unit => loop) loop (some 1) := by
  intro h
  obtain ⟨fuel, hfuel⟩ := h.terminates
  exact hfuel (loop_stack (some 1))

end RouterDefinition

end TransformHub.ApiRouter

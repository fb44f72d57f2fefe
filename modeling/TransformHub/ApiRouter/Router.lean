import TransformHub.Lib.FlatMapM

/-!
# Routers and their resolvers

`RouterDefinition.collect` of `router.ts`, with the paths of `manifest.ts`.
-/

namespace TransformHub.ApiRouter

/-! ## Paths -/

/-- One `/` for several. -/
def squeezeSlashes : List Char → List Char
  | '/' :: '/' :: cs => squeezeSlashes ('/' :: cs)
  | c :: cs => c :: squeezeSlashes cs
  | [] => []

def normalizePath (path : String) : String :=
  let cs := squeezeSlashes ('/' :: path.toList)
  let normalized := if cs.getLast? = some '/' then cs.dropLast else cs
  if normalized = [] then "/" else String.ofList normalized

def joinPaths (basePath path : String) : String :=
  normalizePath (normalizePath basePath ++ "/" ++ normalizePath path)

inductive HttpMethod where
  | get
  | post
  | put
  | patch
  | delete
  | options
  | head

def HttpMethod.upper : HttpMethod → String
  | get => "GET"
  | post => "POST"
  | put => "PUT"
  | patch => "PATCH"
  | delete => "DELETE"
  | options => "OPTIONS"
  | head => "HEAD"

def routeId (method : HttpMethod) (fullPath : String) : String := method.upper ++ " " ++ fullPath

/-- `value || fallback`, of a text. -/
def orElse (value : Option String) (fallback : String) : String :=
  match value with
  | none => fallback
  | some value => if value = "" then fallback else value

/-! ## Definitions -/

structure RouteSchemas (ζ : Type) where
  params : Option ζ
  query : Option ζ
  headers : Option ζ
  body : Option ζ
  response : Option ζ

structure RouteDefinition (η ζ : Type) where
  id : Option String
  method : HttpMethod
  path : String
  schemas : Option (RouteSchemas ζ)
  hooks : List η

structure RouteTarget where
  mountPath : String
  publicBasePath : String
  implementerBasePath : String
  implementerFullPath : String

structure RouteManifestEntry (η ζ : Type) where
  id : String
  method : HttpMethod
  path : String
  schemas : Option (RouteSchemas ζ)
  hooks : List η
  fullPath : String
  implementerPath : Option String
  mountPath : Option String
  virtual : Bool
  owner : Option String
  target : Option RouteTarget
  /-- how many resolvers it was expanded through; not in the code -/
  resolvers : ℕ

/-- What `expandTargetRoutes` reads of a manifest. -/
structure TargetManifest (η ζ : Type) where
  basePath : String
  routes : List (RouteManifestEntry η ζ)

/-- A manifest, or the name of a router. -/
inductive RouteDefinitionSource (ρ η ζ : Type) where
  | manifest (manifest : TargetManifest η ζ)
  | router (name : ρ)

structure ResolverTargetDefinition (ρ η ζ : Type) where
  owner : String
  definitions : RouteDefinitionSource ρ η ζ
  mountPath : Option String
  publicBasePath : Option String
  implementerBasePath : Option String

structure ResolverDefinition (ρ η ζ : Type) where
  id : Option String
  path : String
  schemas : Option (RouteSchemas ζ)
  /-- none, one or an array -/
  targetDefinitions : List (ResolverTargetDefinition ρ η ζ)

structure ResolverManifestEntry (ρ η ζ : Type) where
  id : String
  path : String
  schemas : Option (RouteSchemas ζ)
  targetDefinitions : List (ResolverTargetDefinition ρ η ζ)
  fullPath : String
  implementerPath : String
  mountPath : Option String

structure RouteManifest (ρ η ζ : Type) where
  basePath : String
  routes : List (RouteManifestEntry η ζ)
  resolvers : List (ResolverManifestEntry ρ η ζ)

structure CollectManifestOptions where
  expandResolvers : Bool
  maxResolverDepth : Option ℕ

/-- A router with its routers mounted at paths, each with the hooks of the mount. -/
inductive RouterDefinition (ρ η ζ : Type) where
  | mk (basePath : String) (hooks : List η) (routes : List (RouteDefinition η ζ))
    (resolverDefinitions : List (ResolverDefinition ρ η ζ))
    (mounts : List (String × List η × RouterDefinition ρ η ζ))

variable {ρ η ζ : Type}

namespace RouterDefinition

def basePath : RouterDefinition ρ η ζ → String
  | mk basePath _ _ _ _ => normalizePath basePath

/-! ## Static routes and resolvers -/

/-- The entry of a route; `route` has put the hooks of the router before its own. -/
def routeEntry (basePath : String) (inheritedHooks hooks : List η) (mountPath : Option String)
    (definition : RouteDefinition η ζ) : RouteManifestEntry η ζ :=
  let path := normalizePath definition.path
  let fullPath := joinPaths basePath path
  { id := orElse definition.id (routeId definition.method fullPath)
    method := definition.method
    path
    schemas := definition.schemas
    hooks := inheritedHooks ++ (hooks ++ definition.hooks)
    fullPath
    implementerPath := some path
    mountPath
    virtual := false
    owner := none
    target := none
    resolvers := 0 }

def resolverEntry (basePath : String) (mountPath : Option String)
    (definition : ResolverDefinition ρ η ζ) : ResolverManifestEntry ρ η ζ :=
  let path := normalizePath definition.path
  let fullPath := joinPaths basePath path
  { id := orElse definition.id ("RESOLVE " ++ fullPath)
    path
    schemas := definition.schemas
    targetDefinitions := definition.targetDefinitions
    fullPath
    implementerPath := path
    mountPath }

mutual

def collectRoutes (basePath : String) (inheritedHooks : List η) (mountPath : Option String) :
    RouterDefinition ρ η ζ → List (RouteManifestEntry η ζ)
  | mk _ hooks routes _ mounts =>
    routes.map (routeEntry basePath inheritedHooks hooks mountPath) ++
      collectMountedRoutes basePath (inheritedHooks ++ hooks) mounts

def collectMountedRoutes (basePath : String) (inheritedHooks : List η) :
    List (String × List η × RouterDefinition ρ η ζ) → List (RouteManifestEntry η ζ)
  | [] => []
  | (path, hooks, router) :: mounts =>
    let mountedBase := joinPaths basePath (normalizePath path)
    collectRoutes (joinPaths mountedBase router.basePath) (inheritedHooks ++ hooks)
        (some mountedBase) router ++
      collectMountedRoutes basePath inheritedHooks mounts

end

mutual

def collectResolvers (basePath : String) (mountPath : Option String) :
    RouterDefinition ρ η ζ → List (ResolverManifestEntry ρ η ζ)
  | mk _ _ _ resolverDefinitions mounts =>
    resolverDefinitions.map (resolverEntry basePath mountPath) ++
      collectMountedResolvers basePath mounts

def collectMountedResolvers (basePath : String) :
    List (String × List η × RouterDefinition ρ η ζ) → List (ResolverManifestEntry ρ η ζ)
  | [] => []
  | (path, _, router) :: mounts =>
    let mountedBase := joinPaths basePath (normalizePath path)
    collectResolvers (joinPaths mountedBase router.basePath) (some mountedBase) router ++
      collectMountedResolvers basePath mounts

end

def collectedRoutes (router : RouterDefinition ρ η ζ) : List (RouteManifestEntry η ζ) :=
  router.collectRoutes router.basePath [] none

def collectedResolvers (router : RouterDefinition ρ η ζ) : List (ResolverManifestEntry ρ η ζ) :=
  router.collectResolvers router.basePath none

end RouterDefinition

/-! ## Expansion -/

def relativePath (fullPath basePath : String) : String :=
  let full := normalizePath fullPath
  let base := normalizePath basePath
  if full = base then "/"
  else if (base ++ "/").toList.isPrefixOf full.toList then
    normalizePath (String.ofList (full.toList.drop base.toList.length))
  else full

/-- The merge of two object schemas comes from outside; it is none for other schemas. -/
def mergeObjectSchemas (mergeObjects : ζ → ζ → Option ζ) (left right : Option ζ) : Option ζ :=
  match left, right with
  | some left, some right => (mergeObjects left right).orElse fun _ => some right
  | left, right => right.orElse fun _ => left

def mergeResolverSchemas (mergeObjects : ζ → ζ → Option ζ)
    (resolverSchemas routeSchemas : Option (RouteSchemas ζ)) : Option (RouteSchemas ζ) :=
  let resolverParams := resolverSchemas.bind (·.params)
  let routeParams := routeSchemas.bind (·.params)
  let params := mergeObjectSchemas mergeObjects resolverParams routeParams
  let schemas := routeSchemas.getD ⟨none, none, none, none, none⟩
  some { schemas with
    params := params.orElse fun _ => routeParams.orElse fun _ => resolverParams }

/-- A route of a target, seen through the resolver. -/
def expandRoute (mergeObjects : ζ → ζ → Option ζ) (resolver : ResolverManifestEntry ρ η ζ)
    (target : ResolverTargetDefinition ρ η ζ) (targetBasePath : String)
    (route : RouteManifestEntry η ζ) : RouteManifestEntry η ζ :=
  let publicBasePath := normalizePath (orElse target.publicBasePath resolver.fullPath)
  let implementerBasePath := normalizePath (orElse target.implementerBasePath targetBasePath)
  let mountPath := normalizePath (orElse target.mountPath resolver.path)
  let relativeTargetPath := relativePath route.fullPath implementerBasePath
  let fullPath := joinPaths publicBasePath relativeTargetPath
  { route with
    id := routeId route.method fullPath
    fullPath
    schemas := mergeResolverSchemas mergeObjects resolver.schemas route.schemas
    implementerPath := some (orElse route.implementerPath relativeTargetPath)
    mountPath := some mountPath
    virtual := true
    owner := some target.owner
    target := some ⟨mountPath, publicBasePath, implementerBasePath, route.fullPath⟩
    resolvers := route.resolvers + 1 }

inductive CollectError where
  /-- the calls are nested too deeply -/
  | stack
  | duplicateRoute (id : String)

def CollectError.message : CollectError → String
  | stack => "Maximum call stack size exceeded"
  | duplicateRoute id => "Duplicate route definition: " ++ id

def checkRoutes (seen : List String) :
    List (RouteManifestEntry η ζ) → Except CollectError Unit
  | [] => .ok ()
  | entry :: entries =>
    let pathKey := routeId entry.method entry.fullPath
    if entry.id ∈ seen ∨ pathKey ∈ seen then .error (.duplicateRoute entry.id)
    else checkRoutes (pathKey :: entry.id :: seen) entries

section Collect

variable (mergeObjects : ζ → ζ → Option ζ) (routers : ρ → RouterDefinition ρ η ζ)

/-- `expandTargetRoutes`, with `collect` of the routers. -/
def expandTargetRoutes
    (collect : RouterDefinition ρ η ζ → CollectManifestOptions →
      Except CollectError (RouteManifest ρ η ζ))
    (resolver : ResolverManifestEntry ρ η ζ) (depth : ℕ)
    (target : ResolverTargetDefinition ρ η ζ) :
    Except CollectError (List (RouteManifestEntry η ζ)) :=
  match target.definitions with
  | .manifest manifest =>
    .ok (manifest.routes.map fun route =>
      expandRoute mergeObjects resolver target manifest.basePath { route with resolvers := 0 })
  | .router name =>
    (collect (routers name) ⟨true, some (depth - 1)⟩).map fun manifest =>
      manifest.routes.map (expandRoute mergeObjects resolver target manifest.basePath)

def expandResolverRoutes
    (collect : RouterDefinition ρ η ζ → CollectManifestOptions →
      Except CollectError (RouteManifest ρ η ζ))
    (resolvers : List (ResolverManifestEntry ρ η ζ)) (depth : ℕ) :
    Except CollectError (List (RouteManifestEntry η ζ)) :=
  if depth = 0 then .ok []
  else flatMapM
    (fun resolver => flatMapM (expandTargetRoutes mergeObjects routers collect resolver depth)
      resolver.targetDefinitions) resolvers

def CollectManifestOptions.depth (options : CollectManifestOptions) : ℕ :=
  match options.maxResolverDepth with
  | none => 8
  | some depth => if depth = 0 then 8 else depth

/-- `collect`. The first argument bounds the calls inside of it. -/
def collect : ℕ → RouterDefinition ρ η ζ → CollectManifestOptions →
    Except CollectError (RouteManifest ρ η ζ)
  | 0, _, _ => .error .stack
  | fuel + 1, router, options => do
      let resolvers := router.collectedResolvers
      let expanded ←
        if options.expandResolvers then
          expandResolverRoutes mergeObjects routers (collect fuel) resolvers options.depth
        else .ok []
      let routes := router.collectedRoutes ++ expanded
      checkRoutes [] routes
      return ⟨router.basePath, routes, resolvers⟩

end Collect

end TransformHub.ApiRouter

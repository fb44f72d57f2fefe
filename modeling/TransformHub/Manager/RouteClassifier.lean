import TransformHub.Js.UriComponent

/-!
# Classification of routes

`route-classifier.ts`: what the Manager does with a request by its method and its URL. Paths are
lists of characters.
-/

namespace TransformHub.Manager.RouteClassifier

open Js

inductive ManagerRouteDecisionKind where
  | follow
  | managerMultiplex
  | managerOwned
  | unsupportedBidirectional
deriving DecidableEq

structure ManagerRouteTarget where
  sthId : Option (List Char)
  instanceId : Option (List Char)
  topicName : Option (List Char)
  routeDomain : Option (List Char)
  targetPath : Option (List Char)

def ManagerRouteTarget.empty : ManagerRouteTarget := ⟨none, none, none, none, none⟩

structure ManagerRouteDecision where
  kind : ManagerRouteDecisionKind
  family : List Char
  reason : String
  target : Option ManagerRouteTarget

def defaultApiBase : List Char := "/api/v1".toList

/-! ## Texts -/

def orElse (text : Option (List Char)) (fallback : List Char) : List Char :=
  match text with
  | none => fallback
  | some text => if text = [] then fallback else text

def withSlash (path : List Char) : List Char := if path.head? = some '/' then path else '/' :: path

/-- Leaves out the query. -/
def normalizePath (url : Option (List Char)) : List Char :=
  let path := (orElse url ['/']).takeWhile (· ≠ '?')
  withSlash (if path = [] then ['/'] else path)

def withoutLastSlash (apiBase : List Char) : List Char :=
  if apiBase.getLast? = some '/' then apiBase.dropLast else apiBase

def normalizeBase (apiBase : List Char) : List Char := withSlash (withoutLastSlash apiBase)

def stripApiBase (path apiBase : List Char) : List Char :=
  if path = apiBase then ['/']
  else if (apiBase ++ ['/']).isPrefixOf path then path.drop apiBase.length
  else path

def applyOriginalQuery (targetPath : List Char) (currentUrl : Option (List Char)) : List Char :=
  let url := currentUrl.getD []
  if url = [] ∨ '?' ∈ targetPath then targetPath
  else targetPath ++ url.dropWhile (· ≠ '?')

def createVerserRouteLocation (routeDomain : Option (List Char)) (targetPath : List Char) :
    List Char :=
  let path := withSlash targetPath
  match routeDomain with
  | none => path
  | some domain => if domain = [] then path else "http://".toList ++ domain ++ path

/-- `` `/${segments.join("/")}` ``. -/
def joinSegments (segments : List (List Char)) : List Char :=
  '/' :: ['/'].intercalate segments

/-! ## Decisions -/

def follow (family : List Char) (reason : String) (target : Option ManagerRouteTarget) :
    ManagerRouteDecision := ⟨.follow, family, reason, target⟩

def managerMultiplex (family : List Char) (reason : String) (target : Option ManagerRouteTarget) :
    ManagerRouteDecision := ⟨.managerMultiplex, family, reason, target⟩

def managerOwned (family : List Char) (reason : String) (target : Option ManagerRouteTarget) :
    ManagerRouteDecision := ⟨.managerOwned, family, reason, target⟩

def unsupportedBidirectional (family : List Char) (reason : String)
    (target : Option ManagerRouteTarget) : ManagerRouteDecision :=
  ⟨.unsupportedBidirectional, family, reason, target⟩

def isOneOf (segment : List Char) (names : List String) : Bool :=
  names.any fun name => segment == name.toList

def classifyInstanceRoute (method : String) (segments : List (List Char)) (targetPath : List Char)
    (baseTarget : ManagerRouteTarget) : ManagerRouteDecision :=
  let instanceId :=
    if segments[1]? = some "instance".toList then segments[2]? else segments[1]?
  let opIndex := if segments[0]? = some "instance".toList then 2 else 1
  let op := segments[opIndex]?.getD []
  let target := some { baseTarget with instanceId, targetPath := some targetPath }
  if isOneOf op ["inout"] then
    unsupportedBidirectional "instance-inout".toList
      "Instance /inout is a coupled duplex stream requiring a dedicated protocol" target
  else if isOneOf op
      ["stdout", "stderr", "log", "monitoring", "output", "stdin", "input", "events"] then
    follow "instance-stream".toList "Explicit instance streams target one selected instance" target
  else if isOneOf op ["rpc"] then
    follow "instance-rpc".toList "Instance RPC routes target one selected exposed instance" target
  else if isOneOf op ["_stop", "_kill", "_event", "_monitoring_rate", "set"] &&
      method == "POST" then
    follow "instance-control".toList "Instance control actions mutate one selected instance" target
  else if isOneOf op ["", "health", "event", "once"] then
    follow "instance-read".toList "Instance read/event routes target one selected instance" target
  else
    follow "instance-generic".toList
      "Unknown instance routes are single-target only after an owner is resolved" target

def classifyHostRoute (method : String) (segments : List (List Char))
    (target : ManagerRouteTarget) : ManagerRouteDecision :=
  let family := orElse segments[0]? "host-root".toList
  if isOneOf family ["platform"] then
    unsupportedBidirectional "host-platform".toList
      "Host /platform is a duplex Manager/STH control stream" target
  else if isOneOf family ["topic"] then
    follow "host-topic".toList "Explicit STH topic routes target one selected STH" target
  else if isOneOf family ["log", "audit"] then
    follow ("host-".toList ++ family)
      ("Explicit STH " ++ String.ofList family ++ " routes target one selected STH") target
  else if isOneOf family ["instance"] then
    classifyInstanceRoute method segments (orElse target.targetPath (joinSegments segments)) target
  else if isOneOf family ["rpc"] then
    follow "host-rpc".toList "Host RPC routes target one selected exposed instance" target
  else if isOneOf family ["sequence"] then
    if method == "POST" || method == "PUT" || method == "DELETE" then
      follow "host-sequence-write".toList "Sequence writes are single-owner STH actions" target
    else
      follow "host-sequence-read".toList "Sequence reads target one selected STH" target
  else if isOneOf family
      ["sequences", "instances", "entities", "load-check", "version", "config", "status",
        "topics"] then
    follow "host-state-read".toList "Host state reads target one selected STH" target
  else
    follow "host-generic".toList
      "Generic /sth/:id route targets one selected STH and remains redirect-ready" target

def classifySthRoute (method : String) (segments : List (List Char)) : ManagerRouteDecision :=
  match segments[1]? with
  | none => managerOwned "sth-registry".toList "Manager owns the connected-STH registry" none
  | some sthId =>
    if segments.length = 3 ∧ segments[2]? = some "info".toList then
      managerOwned "sth-info".toList "Manager owns connected-STH registry metadata"
        (some { ManagerRouteTarget.empty with sthId := some sthId })
    else if segments.length = 2 ∧ method = "DELETE" then
      managerOwned "sth-disconnect".toList "Manager owns STH disconnect policy"
        (some { ManagerRouteTarget.empty with sthId := some sthId })
    else
      let hostSegments := segments.drop 2
      classifyHostRoute method hostSegments
        { ManagerRouteTarget.empty with
          sthId := some sthId
          routeDomain := some ("sth.".toList ++ sthId ++ ".scramjet.internal".toList)
          targetPath := some (joinSegments hostSegments) }

def classifyManagerOwnedRoute (method : String) (family : List Char) : ManagerRouteDecision :=
  if isOneOf family
      ["version", "config", "health", "list", "instances", "sequences", "all_sequences", "entities",
        "topics", "load"] then
    managerOwned "manager-state".toList "Manager owns aggregate state and metadata responses" none
  else if isOneOf family ["load-stream"] then
    managerMultiplex "manager-load-stream".toList "Manager owns the live load stream" none
  else if isOneOf family ["log", "audit"] then
    managerMultiplex ("manager-".toList ++ family)
      ("Manager " ++ String.ofList family ++ " route aggregates multiple sources") none
  else if isOneOf family ["store"] && method == "DELETE" then
    managerOwned "manager-store".toList "Manager owns store index cleanup" none
  else if isOneOf family ["disconnect"] && method == "POST" then
    managerOwned "manager-disconnect".toList "Manager owns disconnect policy" none
  else
    managerOwned "manager-unknown".toList
      "Unrecognized Manager routes remain Manager-owned until explicitly classified" none

/-- The segments of a path that are not empty. -/
def rawSegments (path : List Char) : List (List Char) := (path.splitOn '/').filter (· ≠ [])

def urlSegments (url : Option (List Char)) (apiBase : Option (List Char)) : List (List Char) :=
  rawSegments (stripApiBase (normalizePath url) (normalizeBase (orElse apiBase defaultApiBase)))

/-- `(method || "GET").toUpperCase()`; methods are ASCII. -/
def requestMethod (method : Option String) : String :=
  match method with
  | none => "GET"
  | some method => if method = "" then "GET" else method.toUpper

/-- What `classifyManagerRoute` makes of the decoded segments. -/
def classifySegments (method : String) (segments : List (List Char)) : ManagerRouteDecision :=
  match segments with
  | [] => managerOwned "manager-root".toList "Manager owns the API root response" none
  | family :: _ =>
    if isOneOf family ["sth"] then classifySthRoute method segments
    else if isOneOf family ["topic"] then
      managerMultiplex "manager-topic".toList
        "Manager topic routes are live fan-in/fan-out multiplexers"
        (some { ManagerRouteTarget.empty with topicName := segments[1]? })
    else if isOneOf family ["instance"] then
      classifyInstanceRoute method segments (joinSegments segments) .empty
    else if isOneOf family ["s3"] then
      managerOwned "manager-storage".toList "Manager owns sequence package storage state" none
    else if isOneOf family ["rpc"] then
      follow "host-rpc".toList "RPC requests target one selected exposed instance"
        (some { ManagerRouteTarget.empty with targetPath := some (joinSegments segments) })
    else classifyManagerOwnedRoute method family

/-- `none` where `decodeURIComponent` throws. -/
def classifyManagerRoute (method : Option String) (url : Option (List Char))
    (apiBase : Option (List Char)) : Option ManagerRouteDecision :=
  ((urlSegments url apiBase).mapM decodeURIComponent).map (classifySegments (requestMethod method))

inductive ManagerFollowForwardingDecision where
  | redirect (location : List Char) (routeDomain : Option (List Char)) (targetPath : List Char)
  | directRouteMetadata (routeDomain : Option (List Char)) (targetPath : Option (List Char))

/-- `cpm` is the header of that name. -/
def prepareManagerFollowForwarding (decision : ManagerRouteDecision)
    (currentUrl : Option (List Char)) (cpm : Option String) : ManagerFollowForwardingDecision :=
  let targetPath :=
    applyOriginalQuery
      (orElse (decision.target.bind (·.targetPath)) (orElse currentUrl ['/'])) currentUrl
  let routeDomain := decision.target.bind (·.routeDomain)
  if cpm = some "true" then .directRouteMetadata routeDomain (some targetPath)
  else .redirect (createVerserRouteLocation routeDomain targetPath) routeDomain targetPath

end TransformHub.Manager.RouteClassifier

import TransformHub.ApiRouter.Router
import TransformHub.Js.Replace
import TransformHub.Js.UriComponent
import TransformHub.Lib.OrderedMap

/-!
# Path templates

`materializePath` of `client-transports.ts` and the `Verser2RouteRegistry` of `verser2.ts`, which
takes a path apart again.
-/

namespace TransformHub.ApiRouter

open Js

/-- The parameters of a request, in the order of `Object.entries`. -/
abbrev Params := OrderedMap (List Char) (List CodePoint)

/-! ## The client -/

/-- The parameters are replaced in their order; `none` is a throw. -/
def materializeEntries : List (List Char × List CodePoint) → List Char → Option (List Char)
  | [], current => some current
  | (key, value) :: entries, current =>
    match encodeURIComponent value with
    | none => none
    | some encoded => materializeEntries entries (replace current (':' :: key) encoded)

/-- `materializePath`; there are no parameters when `params` is no object. -/
def materializePath (path : List Char) (params : Option Params) : Option (List Char) :=
  match params with
  | none => some path
  | some params => materializeEntries params.entries path

/-! ## The registry -/

inductive RouteKind where
  | request
  | upstream
  | downstream
  | duplex
deriving DecidableEq

structure Verser2RouteRegistration where
  method : HttpMethod
  kind : Option RouteKind
  fullPath : List Char

inductive RouteMatch where
  | matched (params : OrderedMap (List Char) (List Char))
  | malformedEncoding
deriving DecidableEq

/-- What `dispatch` answers; a handled request goes to the handler of a registration. -/
inductive Verser2RouteResponse where
  | handled (registration : Verser2RouteRegistration) (path : List Char)
      (params : OrderedMap (List Char) (List Char))
  | notFound
  | invalidPathEncoding
  | methodNotAllowed (allow : List String)

/-- `[A-Za-z0-9_]`. -/
def isWordChar (c : Char) : Bool := c.isAlphanum || c == '_'

/-- The name of a parameter, and whether it is optional: `^:([A-Za-z0-9_]+)(\?)?$`. -/
def parameter? : List Char → Option (List Char × Bool)
  | ':' :: rest =>
    if rest.takeWhile isWordChar = [] then none
    else if rest.dropWhile isWordChar = [] then some (rest.takeWhile isWordChar, false)
    else if rest.dropWhile isWordChar = ['?'] then some (rest.takeWhile isWordChar, true)
    else none
  | _ => none

/-- `:([A-Za-z0-9_]+)\?` occurs. -/
def hasOptional : List Char → Bool
  | [] => false
  | c :: cs =>
    (c == ':' && !(cs.takeWhile isWordChar).isEmpty &&
      (cs.dropWhile isWordChar).head? == some '?') || hasOptional cs

/-- `path.split("/").filter(Boolean)`. -/
def pathSegments (path : List Char) : List (List Char) := (path.splitOn '/').filter (· ≠ [])

/-- `params[name] = value` of an object literal, whose prototype is not replaced by a text. -/
def setParam (params : OrderedMap (List Char) (List Char)) (name value : List Char) :
    OrderedMap (List Char) (List Char) :=
  if name = "__proto__".toList then params else params.set name value

namespace Verser2RouteRegistry

def key (registration : Verser2RouteRegistration) : String :=
  routeId registration.method (String.ofList registration.fullPath)

def validateVerser2Registration (registration : Verser2RouteRegistration) : Except String String :=
  let segments := pathSegments registration.fullPath
  let wildcardSegments := segments.filter fun segment => segment.contains '*'
  if registration.kind ≠ none ∧ registration.kind ≠ some .request then
    .error ("Verser2RouteRegistry supports unary routes only: " ++ key registration)
  else if hasOptional registration.fullPath then
    .error ("Optional Verser2 route parameters are not supported: " ++ key registration)
  else if wildcardSegments ≠ [] ∧
      (wildcardSegments.length ≠ 1 ∨ segments.getLast? ≠ some ['*']) then
    .error ("Verser2RouteRegistry wildcard must be terminal: " ++ key registration)
  else .ok (key registration)

def register (registrations : List Verser2RouteRegistration)
    (registration : Verser2RouteRegistration) : Except String (List Verser2RouteRegistration) :=
  match validateVerser2Registration registration with
  | .error e => .error e
  | .ok k =>
    if registrations.any fun candidate => key candidate == k then
      .error ("Duplicate Verser2 route registration: " ++ k)
    else .ok (registrations ++ [registration])

/-- The loop of `match` over the parts of the pattern, from an index of the path. -/
def matchParts (pathParts : List (List Char)) :
    List (List Char) → ℕ → OrderedMap (List Char) (List Char) → Option RouteMatch
  | [], index, params => if index = pathParts.length then some (.matched params) else none
  | part :: parts, index, params =>
    if part = ['*'] then
      match decodeURIComponent (['/'].intercalate (pathParts.drop index)) with
      | none => some .malformedEncoding
      | some value => some (.matched (params.set ['*'] value))
    else
      match parameter? part with
      | some (name, optional) =>
        match pathParts[index]? with
        | none => if optional then matchParts pathParts parts (index + 1) params else none
        | some value =>
          match decodeURIComponent value with
          | none => some .malformedEncoding
          | some decoded =>
            matchParts pathParts parts (index + 1) (setParam params name decoded)
      | none =>
        if pathParts[index]? = some part then matchParts pathParts parts (index + 1) params
        else none

/-- `match`. -/
def matchPath (pattern pathname : List Char) : Option RouteMatch :=
  matchParts (pathSegments pathname) (pathSegments pattern) 0 .empty

/-- `method.toUpperCase()`; methods are ASCII. -/
def toUpperCase (method : List Char) : List Char := method.map Char.toUpper

def dispatch (registrations : List Verser2RouteRegistration) (method path : List Char) :
    Verser2RouteResponse :=
  let pathname := path.takeWhile (· ≠ '?')
  let matched := registrations.filterMap fun registration =>
    (matchPath registration.fullPath pathname).map fun result => (registration, result)
  if matched = [] then .notFound
  else if matched.any fun candidate => decide (candidate.2 = .malformedEncoding) then
    .invalidPathEncoding
  else
    let selected := matched.findSome? fun candidate =>
      match candidate.2 with
      | .matched params =>
        if candidate.1.method.upper.toList = toUpperCase method then some (candidate.1, params)
        else none
      | .malformedEncoding => none
    match selected with
    | some (registration, params) => .handled registration pathname params
    | none =>
      .methodNotAllowed
        ((matched.map fun candidate => candidate.1.method.upper).dedup.mergeSort (· ≤ ·))

end Verser2RouteRegistry

end TransformHub.ApiRouter

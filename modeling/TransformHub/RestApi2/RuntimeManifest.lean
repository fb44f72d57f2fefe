import TransformHub.Js.Value

/-!
# Manifest declarations

`snapshotManifestDeclaration` of `runtime-manifest.ts`: a value is copied as JSON data, and the copy
is checked against the schema of declarations.
-/

namespace TransformHub.RestApi2

open Js

/-! ## `copyJsonValue` -/

mutual

/-- `copyJsonValue`; `none` is the `ZodError` it throws. -/
def copyJsonValue : JsValue → Option Json
  | .null => some .null
  | .bool b => some (.bool b)
  | .num n => some (.num n)
  | .str s => some (.str s)
  | .arr plain elems extra =>
    if plain && extra.isEmpty then (copyJsonElems elems).map .arr else none
  | .obj plain props => if plain then (copyJsonProps props).map .obj else none
  | .undefined => none
  | .hole => none
  | .nonFinite => none
  | .nonData => none
termination_by structural v => v

def copyJsonElems : List JsValue → Option (List Json)
  | [] => some []
  | v :: vs => (copyJsonValue v).bind fun j => (copyJsonElems vs).map fun js => j :: js
termination_by structural vs => vs

def copyJsonProps : List (String × JsValue) → Option (List (String × Json))
  | [] => some []
  | (k, v) :: ps => (copyJsonValue v).bind fun j => (copyJsonProps ps).map fun js => (k, j) :: js
termination_by structural ps => ps

end

mutual

theorem copyJsonValue_toValue : ∀ j : Json, copyJsonValue j.toValue = some j
  | .null => rfl
  | .bool _ => rfl
  | .num _ => rfl
  | .str _ => rfl
  | .arr es => by simp [Json.toValue, copyJsonValue, copyJsonElems_toValues es]
  | .obj ms => by simp [Json.toValue, copyJsonValue, copyJsonProps_toProps ms]

theorem copyJsonElems_toValues : ∀ es : List Json, copyJsonElems (Json.toValues es) = some es
  | [] => rfl
  | j :: es => by
      rw [Json.toValues, copyJsonElems, copyJsonValue_toValue j, copyJsonElems_toValues es]
      rfl

theorem copyJsonProps_toProps : ∀ ms : List (String × Json), copyJsonProps
    (Json.toProps ms) = some ms
  | [] => rfl
  | (k, j) :: ms => by
      rw [Json.toProps, copyJsonProps, copyJsonValue_toValue j, copyJsonProps_toProps ms]
      rfl

end

/-! ## The schema -/

/-- An object with no members but these. -/
def strictObject (names : List String) : Json → Bool
  | .obj members => members.all fun member => names.contains member.1
  | _ => false

def isString (j : Json) : Bool := j.str?.isSome

def required (name : String) (p : Json → Bool) (j : Json) : Bool := (j.get? name).any p

def optional (name : String) (p : Json → Bool) (j : Json) : Bool := (j.get? name).all p

def arrayOf (p : Json → Bool) : Json → Bool
  | .arr elems => elems.all p
  | _ => false

def isManifestSchema : Json → Bool
  | .bool _ => true
  | .obj _ => true
  | _ => false

def isManifestField (j : Json) : Bool :=
  strictObject ["description", "mediaType", "schema"] j && optional "description" isString j &&
    optional "mediaType" isString j && optional "schema" isManifestSchema j

def isManifestRpc (j : Json) : Bool :=
  strictObject ["procedure", "description", "contractIdentity", "request", "response"] j &&
    required "procedure" isString j && optional "description" isString j &&
    optional "contractIdentity" isString j && optional "request" isManifestSchema j &&
    optional "response" isManifestSchema j

def isManifestTopic (j : Json) : Bool :=
  strictObject ["name", "direction", "description", "mediaType", "schema"] j &&
    required "name" isString j && required "direction" isString j &&
    optional "description" isString j && optional "mediaType" isString j &&
    optional "schema" isManifestSchema j

/-- `manifestDeclarationDtoSchema`. -/
def isManifestDeclaration (j : Json) : Bool :=
  strictObject ["input", "output", "rpc", "topics"] j && optional "input" isManifestField j &&
    optional "output" isManifestField j && optional "rpc" (arrayOf isManifestRpc) j &&
    optional "topics" (arrayOf isManifestTopic) j

/-- `ManifestDeclaration`, as a snapshot has it. -/
structure ManifestDeclaration where
  json : Json
  valid : isManifestDeclaration json = true

/-- `snapshotManifestDeclaration`; `none` is the error it throws. -/
def snapshotManifestDeclaration (input : JsValue) : Option ManifestDeclaration :=
  match copyJsonValue input with
  | none => none
  | some json => if h : isManifestDeclaration json = true then some ⟨json, h⟩ else none

theorem snapshot_json (manifest : ManifestDeclaration) :
    snapshotManifestDeclaration manifest.json.toValue = some manifest := by
  unfold snapshotManifestDeclaration
  rw [copyJsonValue_toValue]
  exact dif_pos manifest.valid

/-! ## Results of a declaration -/

def isManifestReceipt (j : Json) : Bool :=
  strictObject ["instanceId", "sequenceId", "revision"] j && required "instanceId" isString j &&
    required "sequenceId" isString j && required "revision" isString j

def isManifestDeclarationError (j : Json) : Bool :=
  strictObject ["code", "message", "path"] j && required "code" isString j &&
    required "message" isString j && optional "path" isString j

def isBool (b : Bool) : Json → Bool
  | .bool b' => b = b'
  | _ => false

def isManifestDeclareResult (j : Json) : Bool :=
  (strictObject ["requestId", "accepted", "receipt"] j && required "requestId" isString j &&
      required "accepted" (isBool true) j && required "receipt" isManifestReceipt j) ||
    (strictObject ["requestId", "accepted", "error"] j && required "requestId" isString j &&
      required "accepted" (isBool false) j && required "error" isManifestDeclarationError j)

end TransformHub.RestApi2

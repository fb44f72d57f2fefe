import TransformHub.Js.ObjectHeap
import TransformHub.Js.Text

/-!
# Loading a configuration

`loadConfig` of `config/src/index.ts` up to the merged object: the sources, those read from
environment variables and command line values among them, and `mergeConfig`.
-/

namespace TransformHub.Config.Loader

open ObjectHeap

/-! ## Merging -/

/-- The object that a value is, when `isPlainObject(value)`. -/
def plainObject? (h : Heap) : Value → Option ℕ
  | .object a => if (h.obj a).isArray then none else some a
  | _ => none

/-- The array that a value is, when `Array.isArray(value)`. -/
def array? (h : Heap) : Value → Option ℕ
  | .object a => if (h.obj a).isArray then some a else none
  | _ => none

/-- The elements of an array, for `[...value]`. -/
def elements (h : Heap) (a : ℕ) : OrderedMap Key Value :=
  .ofEntries ((h.keys a).map fun k => (k, h.own a k))

/-- What `mergeConfig` does with one key of the source. -/
def mergeKey (mergeConfig : Heap → ℕ → ℕ → Except JsError Heap) (target source : ℕ)
    (h : Heap) (key : Key) : Except JsError Heap :=
  let value := h.get source key
  if value = .undefined then .ok h
  else
    match plainObject? h value, plainObject? h (h.get target key) with
    | some v, some existing => mergeConfig h existing v
    | some v, none => do
        let (h, fresh) := h.alloc (record OrderedMap.empty)
        let h ← mergeConfig h fresh v
        h.put target key (.object fresh)
    | none, _ =>
      match array? h value with
      | some v =>
        let (h, copy) := h.alloc (array (elements h v))
        h.put target key (.object copy)
      | none => h.put target key value

def mergeConfig : ℕ → Heap → ℕ → ℕ → Except JsError Heap
  | 0, _, _, _ => .error .rangeError
  | n + 1, h, target, source => (h.keys source).foldlM (mergeKey (mergeConfig n) target source) h

/-- `mergeAll`; a source that is missing is `{}`. -/
def mergeAll (n : ℕ) (h : Heap) (sources : List (Option ℕ)) : Except JsError (Heap × ℕ) := do
  let (h, target) := h.alloc (record OrderedMap.empty)
  let h ← sources.foldlM (fun h source =>
    match source with
    | some source => mergeConfig n h target source
    | none => .ok h) h
  return (h, target)

/-! ## Options -/

inductive ConfigPath where
  | dotted (path : Key)
  | parts (path : List Key)

inductive CliOptionType where
  | string
  | number
  | boolean
  | stringArray
  | numberArray
  | json

structure ConfigOptionDescriptor where
  name : Key
  path : Option ConfigPath
  type : Option CliOptionType
  env : Option Key
  envAliases : List Key

def toPath : ConfigPath → List Key
  | .dotted path => path.splitOn '.'
  | .parts path => path

/-- `toPath(option.path || option.name)` -/
def optionPath (option : ConfigOptionDescriptor) : List Key :=
  match option.path with
  | none => toPath (.dotted option.name)
  | some (.dotted []) => toPath (.dotted option.name)
  | some path => toPath path

/-- `if (!isPlainObject(cursor[part])) cursor[part] = {};` -/
def enter (h : Heap) (cursor : ℕ) (part : Key) : Except JsError Heap :=
  match plainObject? h (h.get cursor part) with
  | some _ => .ok h
  | none =>
    let (h, fresh) := h.alloc (record OrderedMap.empty)
    h.put cursor part (.object fresh)

/-- `setPath`; the last part of an empty path is `undefined`. -/
def setPath (h : Heap) (cursor : ℕ) : List Key → Value → Except JsError Heap
  | [], value => h.put cursor "undefined".toList value
  | [key], value => h.put cursor key value
  | part :: key :: path, value => do
      let h ← enter h cursor part
      match h.get cursor part with
      | .object cursor => setPath h cursor (key :: path) value
      | _ => .error .typeError

/-- What `JSON.parse` and the other conversions give; an array has its elements under their
indices. -/
inductive Data where
  | leaf (l : Leaf)
  | node (isArray : Bool) (members : List (Key × Data))

/-- What the language does with texts. -/
structure Conversions where
  number : Key → Leaf
  /-- `JSON.parse`, `none` where it throws -/
  parseJson : Key → Option Data

def leaves (ls : List Leaf) : Data :=
  .node true (ls.zipIdx.map fun (l, i) => ((toString i).toList, .leaf l))

def coerceEnv (js : Conversions) (value : Key) : CliOptionType → Option Data
  | .boolean =>
    some (.leaf (.bool (decide (value.map Char.toLower ∈
      ["1".toList, "true".toList, "yes".toList, "on".toList]))))
  | .number => some (.leaf (js.number value))
  | .json => js.parseJson value
  | .stringArray => some (leaves ((value.splitOn ',').map fun item => .string (Js.trimChars item)))
  | .numberArray =>
    some (leaves ((value.splitOn ',').map fun item => js.number (Js.trimChars item)))
  | .string => some (.leaf (.string value))

mutual

/-- The objects that a parsed text gives. -/
def allocData (h : Heap) : Data → Heap × Value
  | .leaf l => (h, .leaf l)
  | .node isArray members =>
    let (h, props) := allocMembers h members
    let (h, a) := h.alloc (if isArray then array (.ofEntries props) else record (.ofEntries props))
    (h, .object a)
termination_by structural d => d

def allocMembers (h : Heap) : List (Key × Data) → Heap × List (Key × Value)
  | [] => (h, [])
  | m :: members =>
    let (h, v) := allocMember h m
    let (h, props) := allocMembers h members
    (h, v :: props)
termination_by structural ms => ms

def allocMember (h : Heap) : Key × Data → Heap × (Key × Value)
  | (key, d) =>
    let (h, v) := allocData h d
    (h, (key, v))
termination_by structural m => m

end

/-! ## The sources -/

def envKey (env : Key → Option Key) (includeAliases : Bool) (option : ConfigOptionDescriptor) :
    Option Key :=
  ((option.env.toList ++ if includeAliases then option.envAliases else []).filter (· ≠ [])).find?
    fun candidate => (env candidate).isSome

/-- What `envToConfig` does with one option. -/
def setEnvOption (js : Conversions) (env : Key → Option Key) (includeAliases : Bool)
    (result : ℕ) (h : Heap) (option : ConfigOptionDescriptor) : Except JsError Heap :=
  match (envKey env includeAliases option).bind env with
  | none => .ok h
  | some value =>
    match coerceEnv js value (option.type.getD .string) with
    | none => .error .syntaxError
    | some d =>
      let (h, v) := allocData h d
      setPath h result (optionPath option) v

/-- What `cliToConfig` does with one option. -/
def setCliOption (cli result : ℕ) (h : Heap) (option : ConfigOptionDescriptor) :
    Except JsError Heap :=
  if h.get cli option.name = .undefined then .ok h
  else setPath h result (optionPath option) (h.get cli option.name)

inductive Source where
  /-- `defaults`, the config file, the section of `package.json`, or `overrides` -/
  | object (a : Option ℕ)
  | env (vars : Key → Option Key) (includeAliases : Bool)
  | cli (values : ℕ)

variable (js : Conversions) (options : List ConfigOptionDescriptor)

/-- The object that is merged for a source: `envToConfig`, `cliToConfig`, or the source itself. -/
def Source.toConfig (h : Heap) : Source → Except JsError (Heap × Option ℕ)
  | .object a => .ok (h, a)
  | .env vars includeAliases => do
      let (h, result) := h.alloc (record OrderedMap.empty)
      let h ← options.foldlM (setEnvOption js vars includeAliases result) h
      return (h, some result)
  | .cli values => do
      let (h, result) := h.alloc (record OrderedMap.empty)
      let h ← options.foldlM (setCliOption values result) h
      return (h, some result)

def toConfigs (h : Heap) : List Source → Except JsError (Heap × List (Option ℕ))
  | [] => .ok (h, [])
  | source :: sources => do
      let (h, a) ← source.toConfig js options h
      let (h, as) ← toConfigs h sources
      return (h, a :: as)

/-- The sources merged, the one with the lowest precedence first. -/
def mergeSources (n : ℕ) (h : Heap) (sources : List Source) : Except JsError (Heap × ℕ) := do
  let (h, as) ← toConfigs js options h sources
  mergeAll n h as

structure LoadConfigInput where
  defaults : Option ℕ
  configFile : Option ℕ
  packageJsonSection : Option ℕ
  dotenv : Key → Option Key
  env : Key → Option Key
  cli : ℕ
  overrides : Option ℕ

def LoadConfigInput.sources (input : LoadConfigInput) : List Source :=
  [.object input.defaults, .object input.configFile, .object input.packageJsonSection,
    .env input.dotenv false, .env input.env true, .cli input.cli, .object input.overrides]

/-- `loadConfig`, up to the merged object. -/
def loadConfig (n : ℕ) (h : Heap) (input : LoadConfigInput) : Except JsError (Heap × ℕ) :=
  mergeSources js options n h input.sources

end TransformHub.Config.Loader

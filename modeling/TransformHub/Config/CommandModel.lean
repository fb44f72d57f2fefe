import TransformHub.Js.Value

/-!
# The command model

`parseCommandContext` of `command-model.ts`: the tokens that follow a command are read as options
and positional arguments. Texts are lists of characters.
-/

namespace TransformHub.Config

open Js (JsValue)

abbrev Text := List Char

/-- A `CommandUsageError`, or the error of `...v` on a value that cannot be iterated. -/
inductive CommandError where
  | usage (message : Text)
  | notIterable

inductive OptionType where
  | string
  | number
  | boolean
  | stringArray
  | numberArray
  | json
deriving DecidableEq

/-- What the language does with values. -/
structure Conversions where
  number : JsValue → JsValue
  /-- `JSON.parse`, `none` where it throws -/
  parseJson : Text → Option JsValue
  /-- the values of `...v`, `none` where it throws -/
  iterate : JsValue → Option (List JsValue)

structure OptionDescriptor where
  name : Text
  flag : Option Text
  short : Option Text
  aliases : List Text
  type : Option OptionType
  default : Option JsValue
  choices : Option (List Text)
  required : Bool
  negatable : Bool
  /-- `parse`, which gives `none` where it throws -/
  parse : Option (Text → Option JsValue)

structure ArgumentDescriptor where
  name : Text
  required : Bool
  variadic : Bool
  default : Option JsValue
  choices : Option (List Text)
  parse : Option (Text → Option JsValue)

structure CommandDescriptor where
  name : Text
  arguments : List ArgumentDescriptor
  options : List OptionDescriptor

structure CommandContext where
  options : OrderedMap Text JsValue
  args : List JsValue
  rawTokens : List Text

def usageError {α : Type} (message : Text) : Except CommandError α := .error (.usage message)

def text (t : Text) : JsValue := .str (String.ofList t)

/-- The text that a value is, when `typeof v === "string"`. -/
def text? (v : JsValue) : Option Text := v.str?.map String.toList

def isFinite : JsValue → Bool
  | .num _ => true
  | _ => false

/-- `a || b` of two texts. -/
def orElse (a : Option Text) (b : Text) : Text :=
  match a with
  | some (c :: cs) => c :: cs
  | _ => b

def startsWith (prefixText t : Text) : Bool := prefixText.isPrefixOf t

namespace OptionDescriptor

def flagOrName (o : OptionDescriptor) : Text := orElse o.flag o.name

def longFlag (o : OptionDescriptor) : Text := "--".toList ++ o.flagOrName

def isArray (o : OptionDescriptor) : Bool :=
  decide (o.type = some .stringArray) || decide (o.type = some .numberArray)

end OptionDescriptor

def optionTokens (o : OptionDescriptor) : List Text :=
  [o.longFlag] ++
    (if o.type = some .boolean ∧ o.negatable then ["--no-".toList ++ o.flagOrName] else []) ++
    o.aliases.map ("--".toList ++ ·) ++
    (match o.short with
      | some (c :: cs) => ['-' :: c :: cs]
      | _ => [])

/-- `numbers.every(Number.isFinite)`, or the usage error of the first that is not. -/
def checkFinite (o : OptionDescriptor) (numbers : List JsValue) :
    Except CommandError (List JsValue) :=
  if numbers.all isFinite then .ok numbers
  else usageError ("Invalid number for option \"".toList ++ o.longFlag ++ ['"'])

/-- The allowed values, as an error shows them. -/
def joined (choices : List Text) : Text := (choices.intersperse ", ".toList).flatten

def coerceOptionValue (js : Conversions) (value : Text) (o : OptionDescriptor) :
    Except CommandError JsValue := do
  let parsed ← match o.parse with
    | none => .ok (text value)
    | some parse =>
      match parse value with
      | some v => .ok v
      | none => usageError ("Invalid value for option \"".toList ++ o.longFlag ++ ['"'])
  match o.choices, text? parsed with
  | some choices, some t =>
    if t ∉ choices then
      usageError ("Invalid choice for option \"".toList ++ o.longFlag ++
        "\"; allowed values: ".toList ++ joined choices)
  | _, _ => .ok ()
  match o.type with
  | some .number =>
    let number := js.number parsed
    if isFinite number then .ok number
    else usageError ("Invalid number for option \"".toList ++ o.longFlag ++ ['"'])
  | some .json =>
    match text? parsed with
    | none => .ok parsed
    | some t =>
      match js.parseJson t with
      | some v => .ok v
      | none => usageError ("Invalid JSON for option \"".toList ++ o.longFlag ++ ['"'])
  | some .stringArray =>
    match text? parsed with
    | some _ => .ok (.arr true [parsed] [])
    | none => .ok parsed
  | some .numberArray =>
    let numbers := match text? parsed, parsed.elems? with
      | some _, _ => [js.number parsed]
      | none, some elems => elems
      | none, none => [parsed]
    return .arr true (← checkFinite o numbers) []
  | _ => .ok parsed

/-! ## The options -/

/-- The variables of `parseCommandContext` while it reads the tokens, without the indexes. -/
structure Scan where
  options : OrderedMap Text JsValue
  seenScalarOptions : List Text
  positionalTokens : List Text
  endOfOptions : Bool

/-- `[optionName, inlineValue] = token.split("=", 2)`. -/
def splitToken (token : Text) : Text × Option Text :=
  match token.splitOn '=' with
  | [] => ([], none)
  | [optionName] => (optionName, none)
  | optionName :: inlineValue :: _ => (optionName, some inlineValue)

def findOption (allOptions : List OptionDescriptor) (optionName : Text) :
    Option OptionDescriptor :=
  allOptions.find? fun candidate => decide (optionName ∈ optionTokens candidate)

def defaults (allOptions : List OptionDescriptor) : OrderedMap Text JsValue :=
  allOptions.foldl
    (fun options o => match o.default with
      | some v => options.set o.name v
      | none => options)
    .empty

def Scan.start (allOptions : List OptionDescriptor) : Scan :=
  ⟨defaults allOptions, [], [], false⟩

/-- `options[option.name] = …` for the coerced value. -/
def assign (js : Conversions) (s : Scan) (o : OptionDescriptor) (coerced : JsValue) :
    Except CommandError Scan :=
  match o.isArray, (s.options.get? o.name).bind JsValue.elems? with
  | true, some elems =>
    match js.iterate coerced with
    | some more =>
      -- an absent element is copied as `undefined`
      let copied := elems.map fun v => if v.isHole then .undefined else v
      .ok { s with options := s.options.set o.name (.arr true (copied ++ more) []) }
    | none => .error .notIterable
  | _, _ => .ok { s with options := s.options.set o.name coerced }

def storeValue (js : Conversions) (s : Scan) (o : OptionDescriptor) (rawValue : Text) :
    Except CommandError Scan := do
  assign js s o (← coerceOptionValue js rawValue o)

/-- An option that is no array may be given once. -/
def markSeen (s : Scan) (o : OptionDescriptor) : Except CommandError Scan :=
  if o.isArray then .ok s
  else if o.name ∈ s.seenScalarOptions then
    usageError ("Duplicate option \"".toList ++ o.longFlag ++ ['"'])
  else .ok { s with seenScalarOptions := o.name :: s.seenScalarOptions }

def missingValue {α : Type} (o : OptionDescriptor) : Except CommandError α :=
  usageError ("Missing value for option \"".toList ++ o.longFlag ++ ['"'])

/-- The part of the callback that reads the value of option `o`, when `next` is the token that
follows. The second component says whether that token is the value. -/
def readValue (js : Conversions) (s : Scan) (o : OptionDescriptor)
    (inlineValue next : Option Text) : Except CommandError (Scan × Bool) :=
  match inlineValue, next with
  | some rawValue, _ => return (← storeValue js s o rawValue, false)
  | none, none => missingValue o
  | none, some rawValue =>
    if startsWith ['-'] rawValue ∧ o.type ≠ some .number then missingValue o
    else return (← storeValue js s o rawValue, true)

/-- The part of the callback for a token that is option `o`. -/
def readOption (js : Conversions) (s : Scan) (o : OptionDescriptor) (optionName : Text)
    (inlineValue next : Option Text) : Except CommandError (Scan × Bool) := do
  let s ← markSeen s o
  if startsWith "--no-".toList optionName ∧ o.type = some .boolean then
    return ({ s with options := s.options.set o.name (.bool false) }, false)
  else if o.type = some .boolean then
    return ({ s with options := s.options.set o.name (.bool true) }, false)
  else readValue js s o inlineValue next

/-- The callback on a token that is not the value of an option, when `next` follows it. -/
def readToken (js : Conversions) (command : CommandDescriptor) (allOptions : List OptionDescriptor)
    (s : Scan) (token : Text) (next : Option Text) : Except CommandError (Scan × Bool) :=
  if s.endOfOptions then
    .ok ({ s with positionalTokens := s.positionalTokens ++ [token] }, false)
  else if token = "--".toList then .ok ({ s with endOfOptions := true }, false)
  else
    let (optionName, inlineValue) := splitToken token
    match findOption allOptions optionName with
    | none =>
      if token = ['-'] ∨ ¬ startsWith ['-'] token then
        .ok ({ s with positionalTokens := s.positionalTokens ++ [token] }, false)
      else usageError ("Unknown option for command \"".toList ++ command.name ++ ['"'])
    | some o => readOption js s o optionName inlineValue next

/-- The callback of `resolve.remainder.forEach`, with the set `optionValueIndexes`. -/
def visit (js : Conversions) (command : CommandDescriptor) (allOptions : List OptionDescriptor)
    (remainder : List Text) (state : Scan × List ℕ) (visited : Text × ℕ) :
    Except CommandError (Scan × List ℕ) :=
  let (s, optionValueIndexes) := state
  let (token, index) := visited
  if index ∈ optionValueIndexes then .ok state
  else do
    let (s, taken) ← readToken js command allOptions s token remainder[index + 1]?
    return (s, if taken then (index + 1) :: optionValueIndexes else optionValueIndexes)

/-! ## The positional arguments -/

def validateChoice (value : JsValue) (choices : List Text) : Except CommandError JsValue :=
  match text? value with
  | none => .ok value
  | some t =>
    if t ∈ choices then .ok value
    else usageError ("Invalid choice for argument; allowed values: ".toList ++ joined choices)

def argumentValue (positionalTokens : List Text) (a : ArgumentDescriptor) (i : ℕ) : Option Text :=
  if a.variadic then
    match ((positionalTokens.drop i).intersperse [' ']).flatten with
    | [] => none
    | c :: cs => some (c :: cs)
  else positionalTokens[i]?

def readArgument (command : CommandDescriptor) (positionalTokens : List Text)
    (a : ArgumentDescriptor) (i : ℕ) : Except CommandError JsValue :=
  match argumentValue positionalTokens a i with
  | some value => do
      let coerced ← match a.parse with
        | none => .ok (text value)
        | some parse =>
          match parse value with
          | some v => .ok v
          | none => usageError ("Invalid value for argument \"".toList ++ a.name ++ ['"'])
      match a.choices with
      | some choices => validateChoice coerced choices
      | none => .ok coerced
  | none =>
    match a.default with
    | some v => .ok v
    | none =>
      if a.required then
        usageError ("Missing required argument \"".toList ++ a.name ++
          "\" for command \"".toList ++ command.name ++ ['"'])
      else .ok .undefined

/-- The arguments from index `i` on, and the number of positional tokens that are consumed. -/
def readArguments (command : CommandDescriptor) (positionalTokens : List Text) :
    List ArgumentDescriptor → ℕ → ℕ → Except CommandError (List JsValue × ℕ)
  | [], _, consumedPositionals => .ok ([], consumedPositionals)
  | a :: as, i, _ => do
      let value ← readArgument command positionalTokens a i
      let consumed := if a.variadic then positionalTokens.length else i + 1
      let (args, consumedPositionals) ← readArguments command positionalTokens as (i + 1) consumed
      return (value :: args, consumedPositionals)

/-- `option.required && options[option.name] === undefined`, for the first such option. -/
def checkRequired (command : CommandDescriptor) (allOptions : List OptionDescriptor)
    (options : OrderedMap Text JsValue) : Except CommandError Unit :=
  match allOptions.find? fun o =>
      o.required && ((options.get? o.name).getD .undefined).isUndefined with
  | none => .ok ()
  | some o =>
    usageError ("Missing required option \"".toList ++ o.longFlag ++
      "\" for command \"".toList ++ command.name ++ ['"'])

def finish (command : CommandDescriptor) (allOptions : List OptionDescriptor)
    (remainder : List Text) (s : Scan) : Except CommandError CommandContext := do
  let (args, consumedPositionals) ←
    readArguments command s.positionalTokens command.arguments 0 0
  if s.positionalTokens.length > consumedPositionals then
    usageError ("Unexpected positional argument for command \"".toList ++ command.name ++ ['"'])
  checkRequired command allOptions s.options
  return ⟨s.options, args, remainder⟩

def parseCommandContext (js : Conversions) (command : CommandDescriptor)
    (globalOptions : List OptionDescriptor) (remainder : List Text) :
    Except CommandError CommandContext := do
  let allOptions := globalOptions ++ command.options
  let (s, _) ←
    remainder.zipIdx.foldlM (visit js command allOptions remainder) (.start allOptions, [])
  finish command allOptions remainder s

end TransformHub.Config

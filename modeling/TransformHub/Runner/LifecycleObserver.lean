import TransformHub.Js.Base64
import TransformHub.Runner.ShutdownControl

/-!
# Lifecycle observer

`observeChildLifecycleFrames` of `lifecycle-observer.ts`, which looks for terminal frames in the
monitoring channel of a child and classifies all of its frames.
-/

namespace TransformHub.Runner.LifecycleObserver

open Js

def maxBufferBytes : ℕ := 64 * 1024

/-- `RunnerMessageCode.READY`. -/
def readyCode : ℕ := 3014

/-- `RunnerMessageCode.SEQUENCE_COMPLETED`. -/
def sequenceCompletedCode : ℕ := 3011

/-- `RunnerMessageCode.SEQUENCE_STOPPED`. -/
def sequenceStoppedCode : ℕ := 3006

def terminalCodes : List ℕ := [sequenceCompletedCode, sequenceStoppedCode]

/-- `KNOWN_CODES`, the codes of both enumerations. -/
def knownCodes : List ℕ := ShutdownControl.knownControlCodes

/-- `"\n"`. -/
def lf : ℕ := 10

def cr : ℕ := 13

def units (text : List Char) : List ℕ := text.flatMap codeUnits

structure ChildLifecycleSnapshot where
  ready : Bool
  completed : Bool
  stopped : Bool
  valid : Bool

structure Observer where
  observed : Bool
  legacyPending : List ℕ
  classificationPending : List Char
  classificationBytes : ℕ
  readySeen : Bool
  readyErrored : Bool
  completed : Bool
  stopped : Bool
  valid : Bool
  ended : Bool
  disposed : Bool

namespace Observer

def new : Observer := ⟨false, [], [], 0, false, false, false, false, true, false, false⟩

section Lines

variable (parse : List ℕ → Option Json)

def inspectLine (line : List ℕ) : Bool :=
  if line.head? ≠ some '['.toNat then false
  else
    match parse line with
    | some (.arr (.num n :: _)) =>
      match n.toSafeNat? with
      | some code => code ∈ terminalCodes
      | none => false
    | _ => false

def withoutCr (line : List ℕ) : List ℕ := if line.getLast? = some cr then line.dropLast else line

/-- The loop of `onData`: the text goes on after the line that has begun. It ends with what is left,
or at a terminal frame. -/
def inspectLines (line : List ℕ) : List ℕ → Bool × List ℕ
  | [] => (false, line)
  | u :: us =>
    if u = lf then
      if inspectLine parse (withoutCr line) then (true, []) else inspectLines [] us
    else inspectLines (line ++ [u]) us

/-- What `classifyLine` makes of the payload of a `READY`. -/
def classifyReady (o : Observer) (payload : Json) : Observer :=
  match payload with
  | .obj _ =>
    match payload.get? "state" with
    | none => { o with valid := false }
    | some state =>
      if state.str? = some "ready" then { o with readySeen := true }
      else if state.str? = some "errored" then { o with readyErrored := true }
      else { o with valid := false }
  | _ => { o with valid := false }

def classifyLine (o : Observer) (line : List Char) : Observer :=
  match parse (units line) with
  | some (.arr [.num n, payload]) =>
    match n.toSafeNat? with
    | none => { o with valid := false }
    | some code =>
      if code ∉ knownCodes then { o with valid := false }
      else if code = readyCode then o.classifyReady payload
      else if code = sequenceCompletedCode then { o with completed := true }
      else if code = sequenceStoppedCode then { o with stopped := true }
      else o
  | _ => { o with valid := false }

/-- One pass of the loop of `classifyText`. -/
def classifyCharacter (o : Observer) (character : Char) : Observer :=
  if o.valid = false then o
  else if character = '\n' then
    if maxBufferBytes < o.classificationBytes + 1 then
      { o with valid := false, classificationPending := [], classificationBytes := 0 }
    else
      let line :=
        if o.classificationPending.getLast? = some '\r' then o.classificationPending.dropLast
        else o.classificationPending
      { o.classifyLine parse line with classificationPending := [], classificationBytes := 0 }
  else
    let classificationBytes := o.classificationBytes + (String.utf8EncodeChar character).length
    if maxBufferBytes < classificationBytes then
      { o with valid := false, classificationPending := [], classificationBytes := 0 }
    else
      { o with
        classificationPending := o.classificationPending ++ [character]
        classificationBytes }

def classifyText (o : Observer) (text : List Char) : Observer :=
  text.foldl (classifyCharacter parse) o

/-- The last code units that the window holds. -/
def window (pending : List ℕ) : List ℕ :=
  if maxBufferBytes < pending.length then pending.drop (pending.length - maxBufferBytes)
  else pending

def inspectText (o : Observer) (text : List Char) : Observer :=
  if o.observed then o
  else
    let (observed, legacyPending) :=
      inspectLines parse [] (window (o.legacyPending ++ units text))
    { o with observed, legacyPending }

def onData (o : Observer) (chunk : List UInt8) : Observer :=
  if o.disposed then o
  else
    let text := decodeChars chunk
    (o.inspectText parse text).classifyText parse text

end Lines

def onEnd (o : Observer) : Observer :=
  { o with ended := true, valid := o.valid && !decide (0 < o.classificationBytes) }

def snapshot (o : Observer) : ChildLifecycleSnapshot :=
  { ready := o.readySeen && !o.readyErrored
    completed := o.completed
    stopped := o.stopped
    valid := o.valid && o.ended && decide (o.classificationBytes = 0) }

/-- `dispose`, which removes the listeners. -/
def dispose (o : Observer) : Observer :=
  if o.disposed then o
  else { o with
    disposed := true
    legacyPending := []
    classificationPending := []
    classificationBytes := 0 }

end Observer

open Observer

variable (parse : List ℕ → Option Json)

def observe (o : Observer) (chunks : List (List UInt8)) : Observer :=
  chunks.foldl (Observer.onData parse) o

/-- The text has a complete line that is a terminal frame. -/
def HoldsTerminalLine (text : List ℕ) : Prop :=
  ∃ before line rest, text = before ++ line ++ lf :: rest ∧
    (before = [] ∨ before.getLast? = some lf) ∧ lf ∉ line ∧
    inspectLine parse (withoutCr line) = true

end TransformHub.Runner.LifecycleObserver
